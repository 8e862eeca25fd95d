import TagLedger.Suite.Document

/-!
# The root document

One document holds the suites, the definitions of the variables and the settings; the values of
each chat stand in a document of their own.

    Root.decode ctx r.document = .valid r
-/

namespace TagLedger

open Schema

/-! ## Types -/

/-- Which model the analyses ask: the configured one, or another endpoint. -/
structure ApiOverride where
  custom : Bool
  baseUrl : String
  apiKey : String
  model : String
  format : String
  params : List (String × Json)

def ApiOverride.standard : ApiOverride := ⟨false, "", "", "", "openai", []⟩

/-- Messages seen since a suite last fired, by suite and chat. -/
abbrev MessageCounts := List (String × List (String × Int))

structure Settings where
  enabled : Bool
  activeSuite : Option String
  api : ApiOverride
  counts : MessageCounts

def Settings.standard : Settings := ⟨false, none, .standard, []⟩

structure Root where
  version : Int
  /-- By identifier, in order of creation. -/
  suites : List (String × Suite)
  definitions : List (String × Definition)
  settings : Settings

/-- The version that is written. -/
def Root.currentVersion : Int := 2

def Root.standard : Root := ⟨Root.currentVersion, [], [], .standard⟩

/-- The values of a chat by variable, in order. -/
abbrev ChatValues := List (String × Value)

/-! ## Writing -/

def ApiOverride.document (a : ApiOverride) : Json :=
  .obj [("source", .str (if a.custom then "custom" else "default")), ("baseUrl", .str a.baseUrl),
    ("apiKey", .str a.apiKey), ("model", .str a.model), ("format", .str a.format),
    ("params", .obj a.params)]

/-- A map as an object. -/
def Json.ofMap {α : Type} (f : α → Json) (entries : List (String × α)) : Json :=
  .obj (entries.map fun (k, a) => (k, f a))

def Settings.document (s : Settings) : Json :=
  .obj [("enabled", .bool s.enabled), ("activeSuiteId", Json.ofOption .str s.activeSuite),
    ("apiConfig", s.api.document), ("messageCounts", Json.ofMap (Json.ofMap .int) s.counts)]

def Root.document (r : Root) : Json :=
  .obj [("version", .int r.version), ("suites", Json.ofMap Suite.document r.suites),
    ("variables", Json.ofMap Definition.document r.definitions), ("settings", r.settings.document)]

/-- The document of one chat's values. -/
def ChatValues.document (chatId : String) (values : ChatValues) : Json :=
  .obj [("chatId", .str chatId), ("values", Json.ofMap Value.document values)]

/-! ## Reading -/

def ApiOverride.decode : Decoder ApiOverride :=
  record "ApiOverride" fun r =>
    ApiOverride.mk <$> r.optional "source" false (oneOf [("default", false), ("custom", true)])
      <*> r.optional ⟨"baseUrl", "base_url"⟩ "" text
      <*> r.optional ⟨"apiKey", "api_key"⟩ "" text
      <*> r.optional "model" "" text <*> r.optional "format" "openai" text
      <*> r.optional "params" [] anyMapping

def Settings.decode : Decoder Settings :=
  record "VariableSettings" fun r =>
    Settings.mk <$> r.optional "enabled" false truth
      <*> r.optional ⟨"activeSuiteId", "active_suite_id"⟩ none (nullable text)
      <*> r.optional ⟨"apiConfig", "api_config"⟩ .standard ApiOverride.decode
      <*> r.optional ⟨"messageCounts", "message_counts"⟩ [] (mapping (mapping integer))

def Root.decode : Decoder Root :=
  record "StorageRoot" fun r =>
    Root.mk <$> r.optional "version" Root.currentVersion integer
      <*> r.optional "suites" [] (mapping Suite.decode)
      <*> r.optional "variables" [] (mapping Definition.decode)
      <*> r.optional "settings" .standard Settings.decode

end TagLedger
