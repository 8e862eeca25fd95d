import TagLedger.Schema.Record
import TagLedger.Text.Blank

/-!
# Settings of an installation

Where the model is, where documents are kept, how templates are resolved, how the queue takes chats
and where the service listens. Every part has defaults, so an empty document is a valid one.

    Config.decode ctx c.document = .valid c         for settings that were read
-/

namespace TagLedger

open Schema

/-! ## Types -/

/-- Which protocol the model speaks. -/
inductive Provider where
  | ollama
  | openai
  deriving DecidableEq

structure CompletionConfig where
  provider : Provider
  baseUrl : String
  model : String
  apiKey : Option String
  maxTokens : Int
  temperature : Binary64
  timeoutSeconds : Int
  deriving DecidableEq

structure StorageConfig where
  directory : String
  rootDocument : String
  valuesPrefix : String
  debounceSeconds : Binary64
  deriving DecidableEq

structure TemplateConfig where
  /-- Names that stand for the chat itself. -/
  aliases : List String
  floorFormat : String
  maxRounds : Int
  deriving DecidableEq

structure QueueConfig where
  snapshotMode : Bool
  deriving DecidableEq

structure ServiceConfig where
  host : String
  port : Int
  deriving DecidableEq

structure Config where
  debug : Bool
  completion : CompletionConfig
  storage : StorageConfig
  templates : TemplateConfig
  queue : QueueConfig
  service : ServiceConfig
  deriving DecidableEq

/-! ## Defaults -/

def CompletionConfig.standard : CompletionConfig :=
  ⟨.ollama, "http://localhost:11434", "mistral:7b-instruct", none, 2048,
    Binary64.ofDecimal false 7 (-1), 120⟩

def StorageConfig.standard : StorageConfig :=
  ⟨"data/variables", "dynvar-root.json", "dynvar-values-", Binary64.ofDecimal false 3 (-1)⟩

/-- How a floor is written unless something else is asked for. -/
def standardFloorFormat : String := "[Floor \x7bfloor\x7d] \x7bsender\x7d: \x7btext\x7d"

def TemplateConfig.standard : TemplateConfig := ⟨["chat", "酒馆楼层"], standardFloorFormat, 10⟩

def QueueConfig.standard : QueueConfig := ⟨true⟩

def ServiceConfig.standard : ServiceConfig := ⟨"127.0.0.1", 8090⟩

def Config.standard : Config :=
  ⟨false, .standard, .standard, .standard, .standard, .standard⟩

/-! ## Normal forms of texts -/

/-- Without slashes at the end. -/
def withoutSlashes (s : String) : String :=
  String.ofList (Text.dropEndWhile (· == '/') s.toList)

/-- The parts of a path between slashes, without empty parts and parts for the same place. -/
def pathParts (s : List Char) : List (List Char) :=
  (go [] s).filter fun p => !p.isEmpty && p != ['.']
where
  go (part : List Char) : List Char → List (List Char)
    | [] => [part.reverse]
    | c :: r => if c == '/' then part.reverse :: go [] r else go (c :: part) r

/-- A path in normal form: single slashes, none at the end; two slashes in front are kept. -/
def normalPath (s : String) : String :=
  let cs := s.toList
  let slashes := (cs.takeWhile (· == '/')).length
  let lead := if slashes = 0 then [] else if slashes = 2 then ['/', '/'] else ['/']
  let body := (List.intersperse ['/'] (pathParts cs)).flatten
  let whole := lead ++ body
  if whole.isEmpty then "." else String.ofList whole

/-! ## Documents -/

def Provider.text : Provider → String
  | .ollama => "ollama"
  | .openai => "openai-compatible"

def Provider.named : List (String × Provider) :=
  [("ollama", .ollama), ("openai-compatible", .openai)]

def CompletionConfig.document (c : CompletionConfig) : Json :=
  .obj [("provider", .str c.provider.text), ("base_url", .str c.baseUrl), ("model", .str c.model),
    ("api_key", match c.apiKey with
      | some k => .str k
      | none => .null),
    ("max_response_tokens", .int c.maxTokens), ("temperature", .float c.temperature),
    ("timeout_seconds", .int c.timeoutSeconds)]

def StorageConfig.document (c : StorageConfig) : Json :=
  .obj [("data_dir", .str c.directory), ("root_document", .str c.rootDocument),
    ("values_prefix", .str c.valuesPrefix), ("debounce_seconds", .float c.debounceSeconds)]

def TemplateConfig.document (c : TemplateConfig) : Json :=
  .obj [("transcript_aliases", .arr (c.aliases.map .str)), ("floor_format", .str c.floorFormat),
    ("max_nested_iterations", .int c.maxRounds)]

def QueueConfig.document (c : QueueConfig) : Json := .obj [("snapshot_mode", .bool c.snapshotMode)]

def ServiceConfig.document (c : ServiceConfig) : Json :=
  .obj [("host", .str c.host), ("port", .int c.port)]

def Config.fields (c : Config) : List (String × Json) :=
  [("debug", .bool c.debug), ("llm", c.completion.document), ("storage", c.storage.document),
    ("macros", c.templates.document), ("queue", c.queue.document), ("api", c.service.document)]

def Config.document (c : Config) : Json := .obj c.fields

/-! ## Reading -/

/-- An address of the web, without slashes at the end. -/
def address : Decoder String := fun ctx j =>
  (text ctx j).andThen fun s =>
    if "http://".toList.isPrefixOf s.toList || "https://".toList.isPrefixOf s.toList then
      .valid (withoutSlashes s)
    else .issue (.rule "base_url must start with http:// or https://")

/-- A whole number of seconds or tokens within bounds. -/
def positive : Decoder Int := integer.where (0 < ·) (.notGreater 0)

/-- A number that is neither below nor above two bounds, which `nan` is not. -/
def between (low high : Nat) : Decoder Binary64 :=
  (number.where (fun x => !(Binary64.ofNat high).lt x) (.greater high)).where
    (fun x => !x.lt (Binary64.ofNat low)) (.less low)

def CompletionConfig.decode : Decoder CompletionConfig :=
  record "LLMConfig" fun r =>
    let c := CompletionConfig.standard
    CompletionConfig.mk <$> r.optional "provider" c.provider (oneOf Provider.named)
      <*> r.optional "base_url" c.baseUrl address
      <*> r.optional "model" c.model text
      <*> r.optional "api_key" c.apiKey (nullable text)
      <*> r.optional "max_response_tokens" c.maxTokens (positive.where (· ≤ 32768) (.greater 32768))
      <*> r.optional "temperature" c.temperature (between 0 2)
      <*> r.optional "timeout_seconds" c.timeoutSeconds positive

/-- The name of a document, which ends in `.json`. -/
def documentName : Decoder String :=
  text.where (fun s => ".json".toList.isSuffixOf s.toList)
    (.rule "root_document must be a .json file name")

def path : Decoder String
  | _, .str s => .valid (normalPath s)
  | _, _ => .issue .notPath

def StorageConfig.decode : Decoder StorageConfig :=
  record "StorageConfig" fun r =>
    let c := StorageConfig.standard
    StorageConfig.mk <$> r.optional "data_dir" c.directory path
      <*> r.optional "root_document" c.rootDocument documentName
      <*> r.optional "values_prefix" c.valuesPrefix text
      <*> r.optional "debounce_seconds" c.debounceSeconds (between 0 30)

/-- A character that a name in a template cannot hold. -/
def isReserved (c : Char) : Bool := c == '\x7b' || c == '\x7d' || c == '@'

/-- The names that are not blank, trimmed; at least one, and none with a reserved character. -/
def aliasList : Decoder (List String) := fun ctx j =>
  (list text ctx j).andThen fun names =>
    let cleaned := (names.map Text.trimmed).filter (· != "")
    if cleaned.isEmpty then .issue (.rule "at least one transcript alias is required")
    else
      match cleaned.find? fun a => a.toList.any isReserved with
      | some a =>
        .issue (.rule (s!"transcript alias '{a}' may not contain " ++ "'\x7b', '\x7d' or '@'"))
      | none => .valid cleaned

def TemplateConfig.decode : Decoder TemplateConfig :=
  record "MacroConfig" fun r =>
    let c := TemplateConfig.standard
    TemplateConfig.mk <$> r.optional "transcript_aliases" c.aliases aliasList
      <*> r.optional "floor_format" c.floorFormat text
      <*> r.optional "max_nested_iterations" c.maxRounds (positive.where (· ≤ 100) (.greater 100))

def QueueConfig.decode : Decoder QueueConfig :=
  record "QueueConfig" fun r =>
    QueueConfig.mk <$> r.optional "snapshot_mode" true truth

def ServiceConfig.decode : Decoder ServiceConfig :=
  record "APIConfig" fun r =>
    let c := ServiceConfig.standard
    ServiceConfig.mk <$> r.optional "host" c.host text
      <*> r.optional "port" c.port (positive.where (· < 65536) (.notLess 65536))

def Config.decode : Decoder Config :=
  record "SystemConfig" fun r =>
    Config.mk <$> r.optional "debug" false truth
      <*> r.optional "llm" .standard CompletionConfig.decode
      <*> r.optional "storage" .standard StorageConfig.decode
      <*> r.optional "macros" .standard TemplateConfig.decode
      <*> r.optional "queue" .standard QueueConfig.decode
      <*> r.optional "api" .standard ServiceConfig.decode

end TagLedger
