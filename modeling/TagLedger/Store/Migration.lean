import TagLedger.Json.Display
import TagLedger.Store.Root

/-!
# Root documents of older versions

Version 1 kept a list of definitions, the values of every chat and one trigger in one document. It
becomes a root of version 2 with one suite over all variables, and the values of each chat apart.
Documents of version 2 stay as they are, and no other version is read.

    migrate now doc = .ok m → m.from? = none → m.root = doc
-/

namespace TagLedger.Migration

open Schema

/-! ## Types -/

/-- Why a document cannot be brought to the current version. -/
inductive Fault where
  /-- Its version, as it is written, is not supported. -/
  | version (found : String)
  /-- Something that should have fields has none. -/
  | noFields
  /-- A collection or a number is of the wrong kind, or an identifier is a collection. -/
  | wrongKind
  /-- A text that should be a number is none, or a number has too many digits. -/
  | badNumber
  /-- A count is infinite. -/
  | infinite
  | invalid (issues : List Issue)
  deriving DecidableEq

/-- A definition of version 1: its identifier, its mode, and its document in version 2. -/
structure Moved where
  id : Json
  mode : Mode
  document : Json

/-- A document of the current version, and values that go to documents of their own. -/
structure Result where
  root : Json
  chats : List (String × ChatValues)
  /-- The version it was brought from, if it was not current. -/
  source : Option Nat
  /-- The identifiers of the variables in order. -/
  order : List Json

/-- The identifier of the suite that stands for the trigger of version 1. -/
def suiteId : String := "suite_migrated_v1"

/-! ## Version -/

/-- The version of a document: a number or truth value under `version`, else told by its fields. -/
def detectVersion (fields : List (String × Json)) : Json :=
  match Json.find? fields "version" with
  | some (.int n) => .int n
  | some (.bool b) => .bool b
  | _ => if (Json.find? fields "definitions").isSome then .int 1 else .int Root.currentVersion

/-! ## Pieces of version 1 -/

def field (j : Json) (key : String) : Except Fault Json :=
  match j with
  | .obj fields => .ok ((Json.find? fields key).getD .null)
  | _ => .error .noFields

/-- The value, or what stands for an absent one. -/
def orElse (j default : Json) : Json := if j.truthy then j else default

/-- A value as text, within the limit of numerals. -/
def shown (j : Json) : Except Fault String :=
  if j.writable then .ok j.display else .error .badNumber

/-- A value as a whole number. -/
def whole (j : Json) : Except Fault Int :=
  match j with
  | .int n => .ok n
  | .bool b => .ok (if b then 1 else 0)
  | .float x =>
    match x, x.truncate? with
    | _, some n => .ok n
    | .infinite _, none => .error .infinite
    | _, none => .error .badNumber
  | .str s =>
    match Text.readLoose? s with
    | some (.ok n) => .ok n
    | _ => .error .badNumber
  | _ => .error .wrongKind

/-- Two identifiers are the same: as texts, or by their value as numbers. -/
def sameId (a b : Json) : Bool :=
  match a, b with
  | .str s, .str t => s == t
  | .str _, _ => false
  | _, .str _ => false
  | a, b =>
    match number a, number b with
    | some x, some y => x == y
    | _, _ => false
where
  number : Json → Option (Int ⊕ Binary64)
    | .int n => some (.inl n)
    | .bool b => some (.inl (if b then 1 else 0))
    | .float x =>
      match x.toInt? with
      | some n => some (.inl n)
      | none => some (.inr x)
    | _ => none

def isCollection : Json → Bool
  | .arr _ | .obj _ => true
  | _ => false

/-- The key under which an identifier is written. -/
def keyText : Json → String
  | .str s => s
  | .bool b => if b then "true" else "false"
  | j => j.display

/-! ## Definitions -/

/-- A definition in its version 2 form; those without a name are passed over. -/
def moveDefinition (now : Int) (i : Nat) (j : Json) : Except Fault (Option Moved) :=
  match j with
  | .obj fields =>
    let get (key : String) : Json := (Json.find? fields key).getD .null
    if !(get "name").truthy then .ok none
    else do
      let id := orElse (get "id") (.str ("var_v1_" ++ Text.natText i))
      let mode : Mode := match get "mode" with
        | .str s => if s = "stack" then .stack else .replace
        | _ => .replace
      let name := Text.trimmed (← shown (get "name"))
      if isCollection id then throw .wrongKind
      return some ⟨id, mode,
        .obj [("id", id), ("name", .str name),
          ("tag", orElse (get "tag") (.str ("[" ++ name ++ "]"))), ("mode", .str mode.text),
          ("createdAt", (Json.find? fields "createdAt").getD (.int now)), ("updatedAt", .int now)]⟩
  | _ => .ok none

/-- Puts a definition in place of an earlier one with the same identifier, or at the end. -/
def place (m : Moved) : List Moved → List Moved
  | [] => [m]
  | a :: r => if sameId a.id m.id then ⟨a.id, m.mode, m.document⟩ :: r else a :: place m r

def moveDefinitions (now : Int) : List (Nat × Json) → List Moved → Except Fault (List Moved)
  | [], done => .ok done
  | (i, j) :: r, done =>
    match moveDefinition now i j with
    | .error e => .error e
    | .ok none => moveDefinitions now r done
    | .ok (some m) => moveDefinitions now r (place m done)

/-- The items of a collection; those of a text or an object are texts. -/
def itemsOf (j : Json) : Except Fault (List Json) :=
  match j with
  | .arr items => .ok items
  | .str s => .ok (s.toList.map fun c => .str (String.singleton c))
  | .obj fields => .ok (fields.map fun f => .str f.1)
  | _ => .error .wrongKind

/-! ## The suite -/

/-- The suite that does what the trigger of version 1 did. -/
def suiteOf (settings : Json) (moved : List Moved) (now : Int) : Except Fault Json := do
  let auto := orElse (← field settings "autoTrigger") (.obj [])
  let context := orElse (← field settings "contextSettings") (.obj [])
  let fires := (← field auto "enabled").truthy
  let trigger ←
    if fires then do
      let n ← whole (orElse (← field auto "messageCount") (.int 10))
      pure (Json.obj [("type", .str "interval"), ("interval", .int n)])
    else pure (Json.obj [("type", .str "manual")])
  let everything := (← field context "includeAll").truthy
  let range ←
    if everything then pure (Json.obj [("type", .str "fixed"), ("start", .int 1)])
    else do
      let n ← whole (orElse (← field context "messageCount") (.int 50))
      pure (Json.obj [("type", .str "latest"), ("count", .int n)])
  let chat := Json.obj [("type", .str "chat-content"), ("id", .str "item_migrated_v1_chat"),
    ("name", .str "Chat history"), ("enabled", .bool true), ("rangeConfig", range),
    ("excludeUser", .bool false)]
  let slots := moved.map fun v =>
    Json.obj [("type", .str "variable"), ("id", v.id), ("enabled", .bool true)]
  return .obj [("id", .str suiteId), ("name", .str "Migrated suite"), ("enabled", .bool true),
    ("trigger", trigger), ("items", .arr (chat :: slots)), ("createdAt", .int now),
    ("updatedAt", .int now)]

/-! ## Values -/

/-- A value of version 1; a bare content becomes the first entry or the current content. -/
def moveValue (ctx : Context) (mode : Mode) (raw : Json) : Except Fault (Option Value) :=
  match Value.read ctx raw with
  | some (.valid v) => .ok (some v)
  | some (.invalid is) => .error (.invalid is)
  | none =>
    let bare := match raw with
      | .obj fields =>
        match Json.find? fields "value" with
        | some j => j
        | none => (Json.find? fields "content").getD .null
      | j => j
    match bare with
    | .null => .ok none
    | j =>
      (shown j).map fun content =>
        some (match mode with
          | .stack => .stack (Stack.empty.push content "" ctx.now)
          | .replace => .slot { Slot.empty with current := content })

/-- The values of one chat, those of unknown variables left out. -/
def moveValues (ctx : Context) (moved : List Moved) :
    List (String × Json) → Except Fault ChatValues
  | [] => .ok []
  | (id, raw) :: r =>
    match moved.find? fun v => sameId v.id (.str id) with
    | none => moveValues ctx moved r
    | some v =>
      match moveValue ctx v.mode raw with
      | .error e => .error e
      | .ok none => moveValues ctx moved r
      | .ok (some x) => (moveValues ctx moved r).map ((id, x) :: ·)

def moveChats (ctx : Context) (moved : List Moved) :
    List (String × Json) → Except Fault (List (String × ChatValues))
  | [] => .ok []
  | (chat, .obj values) :: r =>
    match moveValues ctx moved values with
    | .error e => .error e
    | .ok [] => moveChats ctx moved r
    | .ok vs => (moveChats ctx moved r).map ((chat, vs) :: ·)
  | _ :: r => moveChats ctx moved r

/-! ## Whole documents -/

/-- The suite that stands for the trigger, if there is anything to ask for. -/
def moveSuites (settings : Json) (moved : List Moved) (now : Int) :
    Except Fault (List (String × Json)) :=
  if moved.isEmpty then .ok []
  else (suiteOf settings moved now).map fun s => [(suiteId, s)]

/-- The values of every chat. -/
def moveAllValues (ctx : Context) (moved : List Moved) (values : Json) :
    Except Fault (List (String × ChatValues)) :=
  match values with
  | .obj chats => moveChats ctx moved chats
  | _ => .error .noFields

/-- The settings in their version 2 form. -/
def moveSettings (enabled api : Json) (moved : List Moved) : Json :=
  let active := if moved.isEmpty then .null else .str suiteId
  let kept := match api with
    | .obj fields => [("apiConfig", Json.obj fields)]
    | _ => []
  .obj ([("enabled", .bool enabled.truthy), ("activeSuiteId", active), ("messageCounts", .obj [])] ++
    kept)

/-- A document of version 1 in the shape of version 2. -/
def fromFirst (ctx : Context) (fields : List (String × Json)) : Except Fault Result := do
  let get (key : String) : Json := (Json.find? fields key).getD .null
  let items ← itemsOf (orElse (get "definitions") (.arr []))
  let moved ← moveDefinitions ctx.now (numbered 0 items) []
  let old := orElse (get "settings") (.obj [])
  let enabled ← field old "enabled"
  let api ← field old "apiConfig"
  let suites ← moveSuites old moved ctx.now
  let chats ← moveAllValues ctx moved (orElse (get "values") (.obj []))
  let root := Json.obj [("version", .int Root.currentVersion), ("suites", .obj suites),
    ("variables", .obj (moved.map fun v => (keyText v.id, v.document))),
    ("settings", moveSettings enabled api moved)]
  return ⟨root, chats, some 1, moved.map (·.id)⟩

/-- The identifiers of the variables of a current document. -/
def orderOf (fields : List (String × Json)) : List Json :=
  match Json.find? fields "variables" with
  | some (.obj vs) => vs.map fun v => .str v.1
  | _ => []

/-- Brings a document to the current version. -/
def migrate (ctx : Context) (doc : Json) : Except Fault Result :=
  match doc with
  | .obj fields =>
    let version := detectVersion fields
    let n := match version with
      | .int n => n
      | .bool true => 1
      | _ => 0
    if n = Root.currentVersion then .ok ⟨doc, [], none, orderOf fields⟩
    else if n = 1 then fromFirst ctx fields
    else .error (.version version.display)
  | _ => .error .noFields

end TagLedger.Migration
