import TagLedger.Config.Basic
import TagLedger.Queue.Task
import TagLedger.Store.Root

/-!
# The kinds of documents

Every kind of document has a normal form: it is read leniently, and what was read is written with
all its fields.

    normal d write ctx j = .valid (write a)         when `d ctx j = .valid a`       (normal_valid)
-/

namespace TagLedger

open Schema

/-- Reads a document and writes it in its normal form. -/
def normal {α : Type} (d : Decoder α) (write : α → Json) : Decoder Json :=
  fun ctx j => (d ctx j).map write

/-- The kinds of documents by name. A task that has no identifier gets `fresh`. -/
def catalogue (fresh : String) : List (String × Decoder Json) :=
  [("VariableDefinition", normal Definition.decode Definition.document),
   ("VariableEntry", normal Entry.decode Entry.document),
   ("StackValue", normal Stack.decode Stack.document),
   ("ReplaceValue", normal Slot.decode Slot.document),
   ("TranscriptMessage", normal Message.decode Message.document),
   ("ChatContext", normal Chat.decode Chat.document),
   ("TriggerConfig", normal Trigger.decode Trigger.document),
   ("RangeConfig", normal RangeRule.decode RangeRule.document),
   ("CustomRegexScript", normal Script.decode Script.document),
   ("RegexConfig", normal ScriptSet.decode ScriptSet.document),
   ("PromptItem", normal PromptItem.decode fun i => (Item.prompt i).document),
   ("VariableItem", normal VariableItem.decode fun i => (Item.variable i).document),
   ("ChatContentItem", normal ChatItem.decode fun i => (Item.chat i).document),
   ("CharPromptItem", normal CharacterItem.decode fun i => (Item.character i).document),
   ("PromptSuite", normal Suite.decode Suite.document),
   ("ApiOverride", normal ApiOverride.decode ApiOverride.document),
   ("VariableSettings", normal Settings.decode Settings.document),
   ("StorageRoot", normal Root.decode Root.document),
   ("SystemConfig", normal Config.decode Config.document),
   ("LLMConfig", normal CompletionConfig.decode CompletionConfig.document),
   ("StorageConfig", normal StorageConfig.decode StorageConfig.document),
   ("MacroConfig", normal TemplateConfig.decode TemplateConfig.document),
   ("QueueConfig", normal QueueConfig.decode QueueConfig.document),
   ("APIConfig", normal ServiceConfig.decode ServiceConfig.document),
   ("QueueTask", normal (Task.decode fresh) Task.document),
   ("SuiteStatus", readStatus fresh)]

theorem normal_valid {α : Type} {d : Decoder α} {write : α → Json} {ctx : Context} {j : Json} {a : α}
    (h : d ctx j = .valid a) : normal d write ctx j = .valid (write a) := by
  simp [normal, h, Checked.map]

end TagLedger
