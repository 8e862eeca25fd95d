import TagLedger.Suite.Basic
import TagLedger.Variable.Document

/-!
# Documents of suites

The items of a suite carry their kind in the field `type`, by which they are told apart.
-/

namespace TagLedger

open Schema

/-! ## Writing -/

def TriggerKind.named : List (String × TriggerKind) :=
  [("manual", .manual), ("interval", .interval), ("keyword", .keyword)]

def TriggerKind.text : TriggerKind → String
  | .manual => "manual"
  | .interval => "interval"
  | .keyword => "keyword"

def Trigger.document (t : Trigger) : Json :=
  .obj [("type", .str t.kind.text), ("interval", Json.ofOption .int t.interval),
    ("keywords", .arr (t.keywords.map .str))]

def RangeKind.named : List (String × RangeKind) :=
  [("fixed", .fixed), ("latest", .latest), ("relative", .relative), ("interval", .interval),
   ("percentage", .percentage), ("exclude", .exclude)]

def RangeKind.text : RangeKind → String
  | .fixed => "fixed"
  | .latest => "latest"
  | .relative => "relative"
  | .interval => "interval"
  | .percentage => "percentage"
  | .exclude => "exclude"
  | .unknown name => name

def RangeSide.named : List (String × RangeSide) := [("start", .start), ("end", .tail)]

def RangeSide.text : RangeSide → String
  | .start => "start"
  | .tail => "end"

def RangeRule.document (r : RangeRule) : Json :=
  let int := Json.ofOption Json.int
  .obj [("type", .str r.kind.text), ("start", int r.start), ("end", int r.stop),
    ("count", int r.count), ("skip", int r.skip), ("step", int r.step),
    ("percent", Json.ofOption .float r.percent), ("position", .str r.side.text),
    ("excludeStart", int r.excludeStart), ("excludeEnd", int r.excludeStop)]

def Script.document (s : Script) : Json :=
  .obj [("id", .str s.id), ("scriptName", .str s.name), ("findRegex", .str s.find),
    ("replaceString", .str s.replacement), ("disabled", .bool s.disabled)]

def ScriptSet.document (s : ScriptSet) : Json :=
  .obj [("usePromptOnly", .bool s.promptOnly),
    ("customScripts", .arr (s.scripts.map Script.document)), ("scriptOrder", .arr (s.order.map .str))]

def CharacterPart.named : List (String × CharacterPart) :=
  [("char-desc", .description), ("char-personality", .personality), ("char-scenario", .scenario),
   ("worldbook", .worldbook)]

def CharacterPart.text : CharacterPart → String
  | .description => "char-desc"
  | .personality => "char-personality"
  | .scenario => "char-scenario"
  | .worldbook => "worldbook"

def Item.document : Item → Json
  | .prompt p =>
    .obj [("type", .str "prompt"), ("id", .str p.id), ("name", .str p.name),
      ("content", .str p.content), ("enabled", .bool p.enabled)]
  | .variable v =>
    .obj [("type", .str "variable"), ("id", .str v.id), ("enabled", .bool v.enabled)]
  | .chat c =>
    .obj [("type", .str "chat-content"), ("id", .str c.id), ("name", .str c.name),
      ("enabled", .bool c.enabled), ("rangeConfig", c.range.document),
      ("excludeUser", .bool c.excludeUser), ("regexConfig", c.scripts.document)]
  | .character c =>
    .obj [("type", .str "char-prompt"), ("id", .str c.id), ("charId", .str c.characterId),
      ("subType", .str c.part.text), ("label", .str c.label),
      ("entryUid", Json.ofOption .int c.entryUid), ("enabled", .bool c.enabled)]

/-- The kind of an item in its document. -/
def Item.kindText : Item → String
  | .prompt _ => "prompt"
  | .variable _ => "variable"
  | .chat _ => "chat-content"
  | .character _ => "char-prompt"

def Suite.fields (s : Suite) : List (String × Json) :=
  [("id", .str s.id), ("name", .str s.name), ("enabled", .bool s.enabled),
    ("trigger", s.trigger.document), ("items", .arr (s.items.map Item.document)),
    ("useSnapshotMode", Json.ofOption .bool s.useSnapshot), ("createdAt", .int s.createdAt),
    ("updatedAt", .int s.updatedAt)]

def Suite.document (s : Suite) : Json := .obj s.fields

/-! ## Reading -/

def Trigger.decode : Decoder Trigger :=
  record "TriggerConfig" fun r =>
    Trigger.mk <$> r.optional "type" .manual (oneOf TriggerKind.named)
      <*> r.optional "interval" none (nullable (integer.where (0 < ·) (.notGreater 0)))
      <*> r.optional "keywords" [] (list text)

def RangeRule.decode : Decoder RangeRule :=
  record "RangeConfig" fun r =>
    let int (name : FieldName) : Checked (Option Int) := r.optional name none (nullable integer)
    RangeRule.mk <$> r.optional "type" .latest (oneOf RangeKind.named)
      <*> int "start" <*> int "end" <*> int "count" <*> int "skip" <*> int "step"
      <*> r.optional "percent" none (nullable number)
      <*> r.optional "position" .tail (oneOf RangeSide.named)
      <*> int ⟨"excludeStart", "exclude_start"⟩ <*> int ⟨"excludeEnd", "exclude_end"⟩

def Script.decode : Decoder Script :=
  record "CustomRegexScript" fun r =>
    Script.mk <$> r.required "id" text
      <*> r.optional ⟨"scriptName", "script_name"⟩ "" text
      <*> r.required ⟨"findRegex", "find_regex"⟩ text
      <*> r.optional ⟨"replaceString", "replace_string"⟩ "" text
      <*> r.optional "disabled" false truth

def ScriptSet.decode : Decoder ScriptSet :=
  record "RegexConfig" fun r =>
    ScriptSet.mk <$> r.optional ⟨"usePromptOnly", "use_prompt_only"⟩ true truth
      <*> r.optional ⟨"customScripts", "custom_scripts"⟩ [] (list Script.decode)
      <*> r.optional ⟨"scriptOrder", "script_order"⟩ [] (list text)

/-- The field that tells the kind; it may be absent but not differ. -/
def kindField (r : Fields) (name : String) : Checked Unit :=
  r.optional "type" () (oneOf [(name, ())])

def PromptItem.decode : Decoder PromptItem :=
  record "PromptItem" fun r =>
    (fun _ => PromptItem.mk) <$> kindField r "prompt" <*> r.required "id" text
      <*> r.optional "name" "" text <*> r.optional "content" "" text
      <*> r.optional "enabled" true truth

def VariableItem.decode : Decoder VariableItem :=
  record "VariableItem" fun r =>
    (fun _ => VariableItem.mk) <$> kindField r "variable" <*> r.required "id" text
      <*> r.optional "enabled" true truth

def ChatItem.decode : Decoder ChatItem :=
  record "ChatContentItem" fun r =>
    (fun _ => ChatItem.mk) <$> kindField r "chat-content" <*> r.required "id" text
      <*> r.optional "name" "" text <*> r.optional "enabled" true truth
      <*> r.optional ⟨"rangeConfig", "range_config"⟩ .standard RangeRule.decode
      <*> r.optional ⟨"excludeUser", "exclude_user"⟩ false truth
      <*> r.optional ⟨"regexConfig", "regex_config"⟩ .empty ScriptSet.decode

def CharacterItem.decode : Decoder CharacterItem :=
  record "CharPromptItem" fun r =>
    (fun _ => CharacterItem.mk) <$> kindField r "char-prompt" <*> r.required "id" text
      <*> r.required ⟨"charId", "char_id"⟩ text
      <*> r.required ⟨"subType", "sub_type"⟩ (oneOf CharacterPart.named)
      <*> r.optional "label" "" text
      <*> r.optional ⟨"entryUid", "entry_uid"⟩ none (nullable integer)
      <*> r.optional "enabled" true truth

/-- The readers of the kinds of items. -/
def Item.kinds : List (String × Decoder Item) :=
  [("prompt", fun ctx j => (PromptItem.decode ctx j).map .prompt),
   ("variable", fun ctx j => (VariableItem.decode ctx j).map .variable),
   ("chat-content", fun ctx j => (ChatItem.decode ctx j).map .chat),
   ("char-prompt", fun ctx j => (CharacterItem.decode ctx j).map .character)]

def Item.decode : Decoder Item
  | ctx, .obj entries =>
    match Json.find? entries "type" with
    | none => .issue .tagMissing
    | some (.str kind) =>
      match Json.find? Item.kinds kind with
      | some d => (d ctx (.obj entries)).below (.key kind)
      | none => .issue .tagUnknown
    | some _ => .issue .tagUnknown
  | _, _ => .issue .noFields

def Suite.decode : Decoder Suite :=
  record "PromptSuite" fun r =>
    Suite.mk <$> r.required "id" text <*> r.optional "name" "New suite" text
      <*> r.optional "enabled" true truth
      <*> r.optional "trigger" .manual Trigger.decode
      <*> r.optional "items" [] (list Item.decode)
      <*> r.optional ⟨"useSnapshotMode", "use_snapshot_mode"⟩ none (nullable truth)
      <*> r.optional ⟨"createdAt", "created_at"⟩ r.context.now integer
      <*> r.optional ⟨"updatedAt", "updated_at"⟩ r.context.now integer

end TagLedger
