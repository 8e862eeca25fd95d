import TagLedger.Text.Numeral

/-!
# Variables and their values

A variable has a name, by which templates refer to it, a tag, by which replies fill it, and a mode.
In stack mode its value in a chat is a log of entries with identifiers that only grow; in replace
mode it is one current content with a history and a cursor into it.

    (s.push content floors time).nextId = s.nextId + 1        (Stack.nextId_push)
-/

namespace TagLedger

/-! ## Definitions -/

/-- How content is kept. -/
inductive Mode where
  | stack
  | replace
  deriving DecidableEq

structure Definition where
  id : String
  name : String
  tag : String
  mode : Mode
  createdAt : Int
  updatedAt : Int
  deriving DecidableEq

namespace Tag

/-- Without one bracket at each end. -/
def strip (tag : List Char) : List Char :=
  let body := match Text.trim tag with
    | '[' :: r => r
    | r => r
  if body.getLast? = some ']' then body.dropLast else body

/-- The label between the brackets of a tag. -/
def label (tag : String) : String := String.ofList (strip tag.toList)

end Tag

/-- The label of the variable's tag. -/
def Definition.label (d : Definition) : String := Tag.label d.tag

/-! ## Values -/

/-- One content with its origin. -/
structure Entry where
  id : Int
  content : String
  /-- The floors of the chat that the content was drawn from, such as `56-65`. -/
  floors : String
  timestamp : Int
  hidden : Bool
  deriving DecidableEq

/-- The value of a stack variable. -/
structure Stack where
  entries : List Entry
  nextId : Int
  deriving DecidableEq

/-- The value of a replace variable. -/
structure Slot where
  current : String
  floors : Option String
  /-- The floor alone, as older documents have it. -/
  floor : Option Int
  history : List Entry
  /-- The position in the history that is shown; -1 shows the current content. -/
  cursor : Int
  deriving DecidableEq

inductive Value where
  | stack (s : Stack)
  | slot (s : Slot)
  deriving DecidableEq

namespace Stack

def empty : Stack := ⟨[], 1⟩

def visible (s : Stack) : List Entry := s.entries.filter fun e => !e.hidden

/-- The first entry with this identifier. -/
def find? (s : Stack) (id : Int) : Option Entry := s.entries.find? fun e => e.id == id

/-- Appends an entry, which takes the next identifier. -/
def push (s : Stack) (content floors : String) (time : Int) : Stack :=
  ⟨s.entries ++ [⟨s.nextId, content, floors, time, false⟩], s.nextId + 1⟩

/-- Changes the first entry with this identifier. -/
def modify (s : Stack) (id : Int) (f : Entry → Entry) : Stack :=
  { s with entries := go s.entries }
where
  go : List Entry → List Entry
    | [] => []
    | e :: r => if e.id == id then f e :: r else e :: go r

/-- Removes the first entry with this identifier; the next identifier stays. -/
def erase (s : Stack) (id : Int) : Stack :=
  { s with entries := s.entries.eraseP fun e => e.id == id }

/-- The last entry with this identifier. -/
def findLast? (s : Stack) (id : Int) : Option Entry := s.entries.reverse.find? fun e => e.id == id

/-- The entries in the order of `ids`; `none` unless every identifier in use stands in it, each as
often as there are distinct ones. -/
def reorder? (s : Stack) (ids : List Int) : Option Stack :=
  let existing := (s.entries.map (·.id)).eraseDups
  if ids.length = existing.length ∧ (∀ i ∈ ids, i ∈ existing) ∧ (∀ i ∈ existing, i ∈ ids) then
    some { s with entries := ids.filterMap s.findLast? }
  else none

@[simp] theorem nextId_push (s : Stack) (content floors : String) (time : Int) :
    (s.push content floors time).nextId = s.nextId + 1 := rfl

@[simp] theorem nextId_erase (s : Stack) (id : Int) : (s.erase id).nextId = s.nextId := rfl

@[simp] theorem nextId_modify (s : Stack) (id : Int) (f : Entry → Entry) :
    (s.modify id f).nextId = s.nextId := rfl

end Stack

namespace Slot

def empty : Slot := ⟨"", none, none, [], -1⟩

/-- The floor alone as text; zero if it is absent. -/
def floorText (s : Slot) : String := Text.intText (s.floor.getD 0)

/-- The floors of the current content, or the floor alone. -/
def label (s : Slot) : String :=
  match s.floors with
  | some f => if f = "" then s.floorText else f
  | none => s.floorText

/-- The history with the current content at its end, unless that is empty. -/
def archived (s : Slot) (time : Int) : List Entry :=
  if s.current = "" then s.history
  else s.history ++ [⟨s.history.length + 1, s.current, s.label, time, false⟩]

/-- Makes a content current; the one before joins the history. -/
def put (s : Slot) (content floors : String) (time : Int) : Slot :=
  ⟨content, some floors, none, s.archived time, -1⟩

/-- What is shown while the history is browsed. -/
structure Shown where
  content : String
  floors : String
  isHistory : Bool
  deriving DecidableEq

/-- The item at a position counted from the start, or from the end if it is negative. -/
def item? (s : Slot) (i : Int) : Option Entry :=
  if 0 ≤ i then s.history[i.toNat]?
  else if -(s.history.length : Int) ≤ i then s.history[(s.history.length + i).toNat]?
  else none

/-- The content under the cursor; `none` when the cursor lies before the whole history. -/
def shown? (s : Slot) : Option Shown :=
  if s.cursor = -1 ∨ (s.history.length : Int) ≤ s.cursor then
    some ⟨s.current, s.label, false⟩
  else
    (s.item? s.cursor).map fun e => ⟨e.content, if e.floors = "" then "0" else e.floors, true⟩

inductive Direction where
  | older
  | newer
  deriving DecidableEq

inductive NoMove where
  | noHistory
  | oldest
  | newest
  deriving DecidableEq

/-- Moves the cursor by one step; the current content comes after the newest item. -/
def navigate (s : Slot) (d : Direction) : Except NoMove Slot :=
  let n : Int := s.history.length
  if s.history.isEmpty then .error .noHistory
  else
    match d with
    | .older =>
      if s.cursor = -1 then .ok { s with cursor := n - 1 }
      else if 0 < s.cursor then .ok { s with cursor := s.cursor - 1 }
      else .error .oldest
    | .newer =>
      if s.cursor = -1 then .error .newest
      else if s.cursor < n - 1 then .ok { s with cursor := s.cursor + 1 }
      else .ok { s with cursor := -1 }

/-- The number of versions, the current one included. -/
def total (s : Slot) : Int := s.history.length + 1

/-- The place of the cursor among the versions, counted from one. -/
def position (s : Slot) : Int := if s.cursor = -1 then s.total else s.cursor + 1

/-- Makes a history item current again; the item stays in the history. -/
def restore? (s : Slot) (i : Int) (time : Int) : Option Slot :=
  if 0 ≤ i then (s.history[i.toNat]?).map fun e => s.put e.content e.floors time else none

end Slot

namespace Value

def stackOf : Value → Stack
  | .stack s => s
  | .slot _ => .empty

def slotOf : Value → Slot
  | .slot s => s
  | .stack _ => .empty

/-- Two values of one kind. -/
def sameKind : Value → Value → Bool
  | .stack _, .stack _ => true
  | .slot _, .slot _ => true
  | _, _ => false

/-- The kind of value that a mode keeps. -/
def fits : Value → Mode → Bool
  | .stack _, .stack => true
  | .slot _, .replace => true
  | _, _ => false

end Value

end TagLedger
