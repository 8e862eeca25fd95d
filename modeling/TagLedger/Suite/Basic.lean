import TagLedger.Number.Binary64

/-!
# Suites

A suite is an ordered list of items that together make one request to a model: fixed text, slots
for variables, floors of the chat, and texts about a character. It may fire on its own, after a
number of new messages or on a keyword.
-/

namespace TagLedger

/-! ## Triggers -/

/-- When a suite runs, and why a run was asked for. -/
inductive TriggerKind where
  | manual
  | interval
  | keyword
  deriving DecidableEq

structure Trigger where
  kind : TriggerKind
  /-- New messages between two runs. -/
  interval : Option Int
  keywords : List String
  deriving DecidableEq

def Trigger.manual : Trigger := ⟨.manual, none, []⟩

/-! ## Selecting floors -/

inductive RangeKind where
  | fixed
  | latest
  | relative
  | interval
  | percentage
  | exclude
  /-- A kind that no rule stands for. -/
  | unknown (name : String)
  deriving DecidableEq

inductive RangeSide where
  | start
  | tail
  deriving DecidableEq

/-- Which floors of a chat an item takes; each kind looks at some of the numbers. -/
structure RangeRule where
  kind : RangeKind
  start : Option Int
  stop : Option Int
  count : Option Int
  skip : Option Int
  step : Option Int
  percent : Option Binary64
  side : RangeSide
  excludeStart : Option Int
  excludeStop : Option Int
  deriving DecidableEq

/-- The latest floors, as many as usual. -/
def RangeRule.ofKind (kind : RangeKind) : RangeRule :=
  ⟨kind, none, none, none, none, none, none, .tail, none, none⟩

/-- The latest twenty floors. -/
def RangeRule.standard : RangeRule := { RangeRule.ofKind .latest with count := some 20 }

/-! ## Rewriting floors -/

/-- One search and replacement on the text of a floor. -/
structure Script where
  id : String
  name : String
  find : String
  replacement : String
  disabled : Bool
  deriving DecidableEq

/-- The scripts of an item, and the order in which they run. -/
structure ScriptSet where
  promptOnly : Bool
  scripts : List Script
  order : List String
  deriving DecidableEq

def ScriptSet.empty : ScriptSet := ⟨true, [], []⟩

/-! ## Items -/

structure PromptItem where
  id : String
  name : String
  content : String
  enabled : Bool
  deriving DecidableEq

/-- A slot for the variable of the same identifier. -/
structure VariableItem where
  id : String
  enabled : Bool
  deriving DecidableEq

structure ChatItem where
  id : String
  name : String
  enabled : Bool
  range : RangeRule
  excludeUser : Bool
  scripts : ScriptSet
  deriving DecidableEq

/-- What about a character an item tells. -/
inductive CharacterPart where
  | description
  | personality
  | scenario
  | worldbook
  deriving DecidableEq

structure CharacterItem where
  id : String
  characterId : String
  part : CharacterPart
  label : String
  entryUid : Option Int
  enabled : Bool
  deriving DecidableEq

inductive Item where
  | prompt (p : PromptItem)
  | variable (v : VariableItem)
  | chat (c : ChatItem)
  | character (c : CharacterItem)
  deriving DecidableEq

namespace Item

def id : Item → String
  | .prompt p => p.id
  | .variable v => v.id
  | .chat c => c.id
  | .character c => c.id

def enabled : Item → Bool
  | .prompt p => p.enabled
  | .variable v => v.enabled
  | .chat c => c.enabled
  | .character c => c.enabled

/-- A slot for this variable. -/
def isSlotFor (variableId : String) : Item → Bool
  | .variable v => v.id == variableId
  | _ => false

def isVariable : Item → Bool
  | .variable _ => true
  | _ => false

end Item

/-! ## Suites -/

structure Suite where
  id : String
  name : String
  enabled : Bool
  trigger : Trigger
  items : List Item
  /-- Overrides the queue's way of taking the chat; absent to follow it. -/
  useSnapshot : Option Bool
  createdAt : Int
  updatedAt : Int
  deriving DecidableEq

namespace Suite

/-- The first item with this identifier. -/
def find? (s : Suite) (itemId : String) : Option Item := s.items.find? fun i => i.id == itemId

/-- The variables of the enabled slots, in order. -/
def enabledVariables (s : Suite) : List String :=
  s.items.filterMap fun
    | .variable v => if v.enabled then some v.id else none
    | _ => none

/-- The enabled items that give text, in order. -/
def visibleItems (s : Suite) : List Item :=
  s.items.filter fun i => !i.isVariable && i.enabled

end Suite

end TagLedger
