import TagLedger.Store.Load
import TagLedger.Suite.Slots

/-!
# Operations on variables

Variables are created, renamed and removed; a removed variable also leaves every chat and suite. In a
chat, entries are added to stacks and contents put into slots. An operation that the input does not
allow changes nothing and says why.

    name? n = none ↔ n, trimmed, is a name          for the check of names
-/

namespace TagLedger

/-! ## Refusals -/

/-- Why an operation was not done. -/
inductive Refusal where
  | emptyName
  | badName
  | emptyTag
  | nameTaken (name : String)
  | tagTaken (tag : String)
  | badMode
  | noVariable
  | noEntry
  | noEntries
  | badOrder
  | badDirection
  | noMove (why : Slot.NoMove)
  | badVersion
  | sameChat
  deriving DecidableEq

def Refusal.message : Refusal → String
  | .emptyName => "Variable name cannot be empty"
  | .badName => "Variable name may only contain letters, digits and CJK characters"
  | .emptyTag => "Tag cannot be empty"
  | .nameTaken name => "Variable name \"" ++ name ++ "\" already exists"
  | .tagTaken tag => "Tag \"" ++ tag ++ "\" is already in use"
  | .badMode => "Mode must be 'stack' or 'replace'"
  | .noVariable => "Variable not found"
  | .noEntry => "Entry not found"
  | .noEntries => "No entries to reorder"
  | .badOrder => "New order must contain every entry id exactly once"
  | .badDirection => "Direction must be 'prev' or 'next'"
  | .noMove .noHistory => "No history"
  | .noMove .oldest => "Already at the oldest version"
  | .noMove .newest => "Already at the newest version"
  | .badVersion => "Invalid history index"
  | .sameChat => "Source and target chat must differ"

/-- What came of an operation that may be refused. -/
abbrev Outcome (α : Type) := Except Refusal α

/-! ## Names and tags -/

/-- A letter or digit of ASCII, or a common Chinese character. -/
def isNameChar (c : Char) : Bool :=
  c.isAlphanum || (0x4E00 ≤ c.toNat && c.toNat ≤ 0x9FA5)

/-- Why a text is no name. -/
def nameProblem? (name : Option String) : Option Refusal :=
  let body := Text.trim (name.getD "").toList
  if body.isEmpty then some .emptyName
  else if body.all isNameChar then none
  else some .badName

/-- Why a text is no tag. -/
def tagProblem? (tag : Option String) : Option Refusal :=
  if (Text.trim (tag.getD "").toList).isEmpty then some .emptyTag else none

/-! ## Floors of a content -/

/-- The last floor of `56-65` or `65`; `none` if the text names no floors. -/
def lastFloor? (floors : String) : Except Text.NumeralTooLong (Option Int) :=
  let s := Text.trim floors.toList
  let first := s.takeWhile Text.isDigit
  let value (ds : List Char) : Except Text.NumeralTooLong (Option Int) :=
    (Text.readDigits ds).map fun (n : Nat) => some (n : Int)
  if first.isEmpty then .ok none
  else
    match Text.trimStart (s.drop first.length) with
    | [] => value first
    | '-' :: r =>
      let second := Text.trimStart r
      if second.isEmpty || !second.all Text.isDigit then .ok none else value second
    | _ => .ok none

/-- The content was written at or before a floor. -/
def writtenBy (floors : String) (floor : Int) : Except Text.NumeralTooLong Bool :=
  (lastFloor? floors).map fun
    | some n => n ≤ floor
    | none => false

/-- The entries that were written at or before a floor. -/
def entriesUpTo (floor : Int) : List Entry → Except Text.NumeralTooLong (List Entry)
  | [] => .ok []
  | e :: r =>
    match writtenBy e.floors floor with
    | .error x => .error x
    | .ok keep => (entriesUpTo floor r).map fun rest => if keep then e :: rest else rest

/-- What a branch that was made at a floor takes over of a value; everything without a floor. -/
def Value.branch (v : Value) (floor : Option Int) : Except Text.NumeralTooLong (Option Value) :=
  match floor with
  | none => .ok (some v)
  | some f =>
    match v with
    | .stack s =>
      (entriesUpTo f s.entries).map fun es =>
        if es.isEmpty then none else some (.stack ⟨es, s.nextId⟩)
    | .slot s =>
      if s.current = "" then .ok none
      else (writtenBy s.label f).map fun keep =>
        if keep then some (.slot ⟨s.current, s.floors, s.floor, [], -1⟩) else none

namespace Variables

/-! ## Definitions -/

def list : Activity Storage (List Definition) := return (← Storage.definitions).map (·.2)

def find? (id : String) : Activity Storage (Option Definition) :=
  return Json.find? (← Storage.definitions) id

def named? (ds : List (String × Definition)) (name : String) : Option Definition :=
  (ds.map (·.2)).find? (·.name == name)

def tagged? (ds : List (String × Definition)) (tag : String) : Option Definition :=
  (ds.map (·.2)).find? (·.tag == tag)

def findByName? (name : String) : Activity Storage (Option Definition) :=
  return named? (← Storage.definitions) name

def findByTag? (tag : String) : Activity Storage (Option Definition) :=
  return tagged? (← Storage.definitions) tag

/-- Creates a variable. -/
def create (name tag : Option String) (mode : Option Mode) :
    Activity Storage (Outcome Definition) := do
  match (nameProblem? name).orElse fun _ => tagProblem? tag with
  | some problem => return .error problem
  | none =>
    let name := Text.trimmed (name.getD "")
    let tag := Text.trimmed (tag.getD "")
    let ds ← Storage.definitions
    if (named? ds name).isSome then return .error (.nameTaken name)
    if (tagged? ds tag).isSome then return .error (.tagTaken tag)
    match mode with
    | none => return .error .badMode
    | some mode =>
      let id ← Storage.newId "var" 5
      let now ← Storage.now
      let d : Definition := ⟨id, name, tag, mode, now, now⟩
      Storage.saveDefinitions (Json.insert ds id d)
      return .ok d

/-- Why a variable cannot take a name. -/
def renameProblem? (ds : List (String × Definition)) (id name : String) : Option Refusal :=
  (nameProblem? (some name)).orElse fun _ =>
    let name := Text.trimmed name
    match named? ds name with
    | some other => if other.id = id then none else some (.nameTaken name)
    | none => none

/-- Gives a variable another name if one is given, and marks it changed. -/
def rename (id : String) (name : Option String) : Activity Storage (Outcome Definition) := do
  let ds ← Storage.definitions
  match Json.find? ds id with
  | none => return .error .noVariable
  | some d =>
    match name.bind (renameProblem? ds id) with
    | some problem => return .error problem
    | none =>
      let now ← Storage.now
      let d := { d with name := (name.map Text.trimmed).getD d.name, updatedAt := now }
      Storage.saveDefinitions (Json.insert ds id d)
      return .ok d

/-- Removes a variable, its values in every chat and, on request, its slots in every suite. -/
def delete (withSlots : Bool) (id : String) : Activity Storage (Outcome Definition) := do
  let ds ← Storage.definitions
  match Json.find? ds id with
  | none => return .error .noVariable
  | some d =>
    Storage.saveDefinitions (ds.filter (·.1 != id))
    let _ ← Storage.removeValues id
    if withSlots then
      let _ ← Suites.removeSlots id
    return .ok d

/-! ## Stacks -/

def stack (id chat : String) : Activity Storage Stack := do
  match ← Storage.getValue id chat with
  | some (.stack s) => return s
  | _ => return .empty

/-- Adds an entry, which takes the next identifier of the stack. -/
def addEntry (id chat content floors : String) : Activity Storage Entry := do
  let s ← stack id chat
  let now ← Storage.now
  Storage.editValue id chat (.stack (s.push content floors now))
  return ⟨s.nextId, content, floors, now, false⟩

/-- Changes an entry. -/
def changeEntry (id chat : String) (entry : Int) (f : Entry → Entry) :
    Activity Storage (Outcome Entry) := do
  let s ← stack id chat
  match s.find? entry with
  | none => return .error .noEntry
  | some e =>
    Storage.editValue id chat (.stack (s.modify entry f))
    return .ok (f e)

def updateEntry (id chat : String) (entry : Int) (content : String) :
    Activity Storage (Outcome Entry) :=
  changeEntry id chat entry fun e => { e with content := content }

/-- Shows a hidden entry, and hides one that is shown; whether it is hidden now. -/
def toggleEntry (id chat : String) (entry : Int) : Activity Storage (Outcome Bool) := do
  let r ← changeEntry id chat entry fun e => { e with hidden := !e.hidden }
  return r.map (·.hidden)

def deleteEntry (id chat : String) (entry : Int) : Activity Storage (Outcome Entry) := do
  let s ← stack id chat
  match s.find? entry with
  | none => return .error .noEntry
  | some e =>
    Storage.editValue id chat (.stack (s.erase entry))
    return .ok e

/-- Puts the entries in another order. -/
def reorderEntries (id chat : String) (order : List Int) : Activity Storage (Outcome Unit) := do
  let s ← stack id chat
  if s.entries.isEmpty then return .error .noEntries
  match s.reorder? order with
  | none => return .error .badOrder
  | some s =>
    Storage.editValue id chat (.stack s)
    return .ok ()

/-! ## Slots -/

def slot (id chat : String) : Activity Storage Slot := do
  match ← Storage.getValue id chat with
  | some (.slot s) => return s
  | _ => return .empty

/-- Makes a content current; the one before joins the history. -/
def put (id chat content floors : String) : Activity Storage Slot := do
  let s := (← slot id chat).put content floors (← Storage.now)
  Storage.editValue id chat (.slot s)
  return s

def direction? (word : String) : Option Slot.Direction :=
  if word = "prev" then some .older else if word = "next" then some .newer else none

/-- Moves the cursor of a slot; its place and the number of versions. -/
def navigate (id chat word : String) : Activity Storage (Outcome (Int × Int)) := do
  match direction? word with
  | none => return .error .badDirection
  | some d =>
    match (← slot id chat).navigate d with
    | .error why => return .error (.noMove why)
    | .ok s =>
      Storage.editValue id chat (.slot s)
      return .ok (s.position, s.total)

/-- Makes a version of the history current again. -/
def restore (id chat : String) (version : Int) : Activity Storage (Outcome Slot) := do
  match (← slot id chat).restore? version (← Storage.now) with
  | none => return .error .badVersion
  | some s =>
    Storage.editValue id chat (.slot s)
    return .ok s

/-- What a slot shows while its history is browsed. -/
def shown (id chat : String) : Activity Storage Slot.Shown := do
  match (← slot id chat).shown? with
  | some x => return x
  | none => throw .noPosition

/-! ## Branches -/

/-- Copies values into a chat one by one; the variables copied. -/
def copyInto (target : String) (floor : Option Int) :
    List (String × Value) → Activity Storage (List String)
  | [] => return []
  | (id, v) :: r =>
    match v.branch floor with
    | .error e => throw (.ofNumeral e)
    | .ok none => copyInto target floor r
    | .ok (some v) => do
      Storage.setValue id target v
      return id :: (← copyInto target floor r)

/-- Copies the values of a chat into one that was branched from it. -/
def inherit (source target : String) (floor : Option Int) (only : Option (List String)) :
    Activity Storage (Outcome (List String)) := do
  if source = target then return .error .sameChat
  let ds ← Storage.definitions
  let vs ← Storage.loadValues source
  let wanted (id : String) : Bool :=
    (match only with
      | some ids => ids.contains id
      | none => true) && (Json.find? ds id).isSome
  return .ok (← copyInto target floor (vs.filter fun v => wanted v.1))

/-! ## Texts -/

/-- The text of a variable: the visible entries of its stack, or the current content of its slot. -/
def text (id chat : String) : Activity Storage String := do
  match ← find? id with
  | none => return ""
  | some d =>
    match d.mode with
    | .stack => return joinBlocks ((← stack id chat).visible.map (·.content))
    | .replace => return (← slot id chat).current

def textByName (name chat : String) : Activity Storage String := do
  match ← findByName? name with
  | none => return ""
  | some d => text d.id chat

/-- Loads what `lookup?` needs. -/
def warm (chat : String) : Activity Storage Unit := do
  let _ ← Storage.load
  let _ ← Storage.loadValues chat

/-- The definition with a name and its value in a chat, from memory. -/
def lookup? (s : Store) (name chat : String) : Option (Definition × Option Value) :=
  (named? s.definitions name).map fun d => (d, s.value? d.id chat)

end Variables

end TagLedger
