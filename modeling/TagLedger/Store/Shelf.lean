import TagLedger.Failure
import TagLedger.Json.Basic

/-!
# Shelves

A shelf keeps named texts in memory, in the order of their first writing. It can be told to refuse
accesses, and it notes what was done with it.

    (s.write n t).2.documents, if n is not refused, is s.documents with t under n
-/

namespace TagLedger

/-- One use of a shelf. -/
inductive Access where
  | read (name : String)
  | write (name : String)
  | delete (name : String)
  deriving DecidableEq

/-- What was asked of a shelf, and what came of it. -/
inductive Shelf.Call where
  | read (name : String) (answer : Except StorageFault (Option String))
  | write (name text : String) (done : Bool)
  | delete (name : String) (done : Bool)

structure Shelf where
  documents : List (String × String)
  refuses : Access → Bool
  /-- Every read and each successful change, the latest first. -/
  journal : List Access
  /-- Everything that was asked, the latest first. -/
  calls : List Shelf.Call
  /-- The number of successful writes. -/
  writes : Nat

namespace Shelf

def ofDocuments (documents : List (String × String)) : Shelf :=
  ⟨documents, fun _ => false, [], [], 0⟩

def find? (s : Shelf) (name : String) : Option String := Json.find? s.documents name

def note (s : Shelf) (a : Access) : Shelf := { s with journal := a :: s.journal }

/-- Keeps what was asked. -/
def keepCall (s : Shelf) (c : Call) : Shelf := { s with calls := c :: s.calls }

/-- The text under a name, if there is one. -/
def read (s : Shelf) (name : String) : Except StorageFault (Option String) × Shelf :=
  let answer :=
    if s.refuses (.read name) then .error (.cannotRead name) else .ok (s.find? name)
  (answer, (s.note (.read name)).keepCall (.read name answer))

/-- Puts a text under a name. -/
def put (s : Shelf) (name text : String) : Shelf :=
  { s with documents := Json.insert s.documents name text }

def write (s : Shelf) (name text : String) : Except StorageFault Unit × Shelf :=
  if s.refuses (.write name) then (.error (.cannotWrite name), s.keepCall (.write name text false))
  else
    let changed := ((s.put name text).note (.write name)).keepCall (.write name text true)
    (.ok (), { changed with writes := s.writes + 1 })

/-- Takes away the text under a name. -/
def drop (s : Shelf) (name : String) : Shelf :=
  { s with documents := s.documents.filter (·.1 != name) }

def delete (s : Shelf) (name : String) : Except StorageFault Unit × Shelf :=
  if s.refuses (.delete name) then (.error (.cannotDelete name), s.keepCall (.delete name false))
  else (.ok (), ((s.drop name).note (.delete name)).keepCall (.delete name true))

/-- Refuses reads, or writes and removals, on request. -/
def refusing (s : Shelf) (reads writes : Bool) : Shelf :=
  { s with refuses := fun
    | .read _ => reads
    | .write _ | .delete _ => writes }

end Shelf

end TagLedger
