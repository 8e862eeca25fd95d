import TagLedger.Store.Basic

/-!
# The log of calls

Each call of the model is noted with its prompt and its reply or failure, in a folder for its chat.
Chats whose names agree in their safe characters share a folder; a chat without a name has the
common folder itself, so clearing its log clears every log. A log that is switched off stays empty.

    (log.note chat r).read chat = log.read chat ++ [r]          when nothing is in the way
-/

namespace TagLedger

structure CallRecord where
  kind : String
  suiteId : String
  suiteName : String
  model : String
  floors : String
  prompt : String
  response : Option String
  error : Option String

def CallRecord.document (r : CallRecord) : Json :=
  .obj [("kind", .str r.kind), ("suiteId", .str r.suiteId), ("suiteName", .str r.suiteName),
    ("model", .str r.model), ("floorRange", .str r.floors), ("prompt", .str r.prompt),
    ("response", Json.ofOption .str r.response), ("error", Json.ofOption .str r.error)]

/-- What stands at the place of a chat's folder. -/
inductive LogPlace where
  | folder (records : List CallRecord)
  /-- A file, which no folder can be made in place of. -/
  | inTheWay

structure CallLog where
  enabled : Bool
  root : String
  /-- The common folder is there. -/
  stands : Bool
  /-- The records of the chat without a name. -/
  unnamed : Option (List CallRecord)
  /-- By safe name. -/
  places : List (String × LogPlace)

namespace CallLog

/-- The name of a log in the folder of its chat. -/
def fileName : String := "analysis.jsonl"

def create (root : String) (enabled : Bool) : CallLog := ⟨enabled, root, enabled, none, []⟩

/-- The path of a chat's folder. -/
def folder (root chat : String) : String :=
  if chat = "" then root else root ++ "/" ++ Store.safeName chat

/-- The path of a chat's log. -/
def file (root chat : String) : String := folder root chat ++ "/" ++ fileName

def read (l : CallLog) (chat : String) : List CallRecord :=
  if chat = "" then l.unnamed.getD []
  else
    match Json.find? l.places (Store.safeName chat) with
    | some (.folder rs) => rs
    | _ => []

/-- Notes a call; what cannot be written is dropped. -/
def note (l : CallLog) (chat : String) (r : CallRecord) : CallLog :=
  if !l.enabled then l
  else if chat = "" then { l with stands := true, unnamed := some (l.unnamed.getD [] ++ [r]) }
  else
    match Json.find? l.places (Store.safeName chat) with
    | some .inTheWay => l
    | _ =>
      { l with
        stands := true
        places := Json.insert l.places (Store.safeName chat) (.folder (l.read chat ++ [r])) }

/-- Why a log cannot be cleared. -/
inductive ClearFault where
  | notFolder
  deriving DecidableEq

/-- Removes the folder of a chat; whether there was one. -/
def clear (l : CallLog) (chat : String) : Except ClearFault Bool × CallLog :=
  if chat = "" then
    (.ok l.stands, { l with stands := false, unnamed := none, places := [] })
  else
    match Json.find? l.places (Store.safeName chat) with
    | some (.folder _) =>
      (.ok true, { l with places := l.places.filter (·.1 != Store.safeName chat) })
    | some .inTheWay => (.error .notFolder, l)
    | none => (.ok false, l)

/-- Puts a file where the folder of a chat would be. -/
def obstruct (l : CallLog) (chat : String) : CallLog :=
  if chat = "" then l
  else
    { l with stands := true, places := Json.insert l.places (Store.safeName chat) .inTheWay }

/-- The paths of everything that is there, in order. -/
def paths (l : CallLog) : List String :=
  let below (p : String × LogPlace) : List String :=
    let here := l.root ++ "/" ++ p.1
    match p.2 with
    | .folder _ => [here, here ++ "/" ++ fileName]
    | .inTheWay => [here]
  let all := (if l.stands then [l.root] else []) ++
    (if l.unnamed.isSome then [file l.root ""] else []) ++ l.places.flatMap below
  all.mergeSort

end CallLog

end TagLedger
