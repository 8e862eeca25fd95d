import TagLedger.Json.Basic
import TagLedger.Text.Lines
import TagLedger.Text.Quoted

/-!
# Folders of documents

Documents may also be kept as files of one folder, which is made by the first write. A name is a
plain file name. Line ends are read as line feeds whatever they were; bytes that are no text, or a
folder in the place of a file, are a fault.

    ((f.write n t).2.read n) = .ok (some (Text.unixLines t))     for a name that files can have
-/

namespace TagLedger

/-- What stands under a name in a folder. -/
inductive FolderEntry where
  | file (bytes : ByteArray)
  | folder

/-- A folder and what it holds, if it is there. -/
structure Folder where
  path : String
  entries : Option (List (String × FolderEntry))

/-- Why an access to a folder fails. -/
inductive FolderFault where
  /-- The name is no plain file name. -/
  | badName (name : String)
  | cannotRead (path : String)
  | cannotWrite (path : String)
  | cannotDelete (path : String)
  /-- The name has a character that no path can hold. -/
  | badCharacter
  deriving DecidableEq

def FolderFault.message : FolderFault → String
  | .badName name => "Invalid document name: " ++ Text.quote name
  | .cannotRead path => "Failed to read " ++ path
  | .cannotWrite path => "Failed to write " ++ path
  | .cannotDelete path => "Failed to delete " ++ path
  | .badCharacter => "embedded null byte"

namespace Folder

/-! ## Names and texts -/

/-- A name without separators that is not one of the names of folders themselves. -/
def isPlainName (name : String) : Bool :=
  !name.toList.any (fun c => c == '/' || c == '\\') && name != "" && name != "." && name != ".."

/-- The longest name of a file, in bytes. -/
def longestName : Nat := 255

/-- A file is first written under its name with a dot before and fourteen more characters. -/
def draftLength : Nat := 14

def hasNull (name : String) : Bool := name.toList.any (·.toNat == 0)

def place (f : Folder) (name : String) : String := f.path ++ "/" ++ name

def find? (f : Folder) (name : String) : Option FolderEntry :=
  f.entries.bind fun es => Json.find? es name

/-- The folder is there and a name is too long for it, with so many characters more. -/
def isTooLong (f : Folder) (name : String) (more : Nat) : Bool :=
  f.entries.isSome && decide (longestName < name.utf8ByteSize + more)

/-! ## Accesses -/

/-- The text under a name; `none` if there is no file. -/
def read (f : Folder) (name : String) : Except FolderFault (Option String) :=
  if !isPlainName name then .error (.badName name)
  else if hasNull name then .ok none
  else if f.isTooLong name 0 then .error (.cannotRead (f.place name))
  else
    match f.find? name with
    | none => .ok none
    | some .folder => .error (.cannotRead (f.place name))
    | some (.file bytes) =>
      match String.fromUTF8? bytes with
      | some s => .ok (some (String.ofList (Text.unixLines s.toList)))
      | none => .error (.cannotRead (f.place name))

/-- The folder, made if it was not there. -/
def made (f : Folder) : Folder := { f with entries := some (f.entries.getD []) }

/-- Puts something under a name. -/
def put (f : Folder) (name : String) (e : FolderEntry) : Folder :=
  { f with entries := some (Json.insert (f.entries.getD []) name e) }

/-- Writes a text under a name. -/
def write (f : Folder) (name text : String) : Except FolderFault Unit × Folder :=
  if !isPlainName name then (.error (.badName name), f)
  else if hasNull name then (.error .badCharacter, f.made)
  else if f.made.isTooLong name draftLength then (.error (.cannotWrite (f.place name)), f.made)
  else
    match f.find? name with
    | some .folder => (.error (.cannotWrite (f.place name)), f)
    | _ => (.ok (), f.put name (.file text.toUTF8))

/-- Removes what is under a name; whether there was a file. -/
def delete (f : Folder) (name : String) : Except FolderFault Bool × Folder :=
  if !isPlainName name then (.error (.badName name), f)
  else if hasNull name then (.ok false, f)
  else if f.isTooLong name 0 then (.error (.cannotDelete (f.place name)), f)
  else
    match f.find? name with
    | none => (.ok false, f)
    | some .folder => (.error (.cannotDelete (f.place name)), f)
    | some (.file _) =>
      (.ok true, { f with entries := f.entries.map fun es => es.filter (·.1 != name) })

/-- The names in order, if the folder is there. -/
def names? (f : Folder) : Option (List String) := f.entries.map fun es => (es.map (·.1)).mergeSort

end Folder

end TagLedger
