import TagLedger.Transcript.FloorFormat
import TagLedger.Transcript.Script
import TagLedger.Transcript.Selection

/-!
# Floors as text

The chosen floors of a chat become a text, one block per floor with a blank line between. Scripts
run on each floor by itself; a floor without text, or blank after the scripts, is left out.

    renderFloors format messages [] floors          the text that a reference to floors stands for
-/

namespace TagLedger

/-! ## Faults -/

/-- Why floors cannot be rendered. -/
inductive RenderFault where
  | format (fault : FloorFormat.Fault)
  | script (error : ScriptError)
  deriving DecidableEq

/-! ## Rendering -/

/-- Blocks with a blank line between them. -/
def joinBlocks (blocks : List String) : String := String.intercalate "\n\n" blocks

/-- One floor in the given format. -/
def formatFloor (format : String) (floor : Int) (m : Message) (text : String) :
    Except FloorFormat.Fault String :=
  FloorFormat.render format ⟨floor, m.speaker, text⟩

/-- The block of a floor, if it is in the chat and has text left after the scripts. -/
def floorBlock (format : String) (messages : List Message) (scripts : List Script) (floor : Int) :
    Except RenderFault (Option String) :=
  match messageAt? messages floor with
  | none => .ok none
  | some m =>
    if m.text = "" then .ok none
    else
      match runScripts scripts m.text with
      | .error e => .error (.script e)
      | .ok text =>
        if Text.isBlankText text then .ok none
        else
          match formatFloor format floor m text with
          | .error e => .error (.format e)
          | .ok block => .ok (some block)

/-- The blocks of floors, each with its floor. -/
def floorBlocks (format : String) (messages : List Message) (scripts : List Script) :
    List Int → Except RenderFault (List (Int × String))
  | [] => .ok []
  | f :: r =>
    match floorBlock format messages scripts f with
    | .error e => .error e
    | .ok block =>
      (floorBlocks format messages scripts r).map fun rest =>
        match block with
        | some b => (f, b) :: rest
        | none => rest

/-- A text and the floors it was drawn from. -/
structure Rendered where
  text : String
  floors : List Int
  deriving DecidableEq

/-- The text of floors, and those of them that gave a block. -/
def renderFloors (format : String) (messages : List Message) (scripts : List Script)
    (floors : List Int) : Except RenderFault Rendered :=
  (floorBlocks format messages scripts floors).map fun blocks =>
    ⟨joinBlocks (blocks.map (·.2)), blocks.map (·.1)⟩

/-- The floors that an item takes of a chat. -/
def ChatItem.floorsOf (item : ChatItem) (messages : List Message) : List Int :=
  item.range.select messages.length item.excludeUser messages

/-- The text of an item, with every floor that it takes, whether it gave a block or not. -/
def ChatItem.render (item : ChatItem) (format : String) (messages : List Message) :
    Except RenderFault Rendered :=
  let floors := item.floorsOf messages
  (renderFloors format messages item.scripts.active floors).map fun r => ⟨r.text, floors⟩

end TagLedger
