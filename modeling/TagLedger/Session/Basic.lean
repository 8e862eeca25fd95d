import TagLedger.Analysis.CallLog
import TagLedger.Completion.Client
import TagLedger.Completion.Rehearsal
import TagLedger.Queue.Basic
import TagLedger.Variable.Operation

/-!
# Sessions

A session is the storage with everything that works on it: the model, the analyzer, the queue, the
counters of messages, and what the host of the chats supplies. It lasts until the program ends; what
was not written by then is lost.
-/

namespace TagLedger

/-- What the host of the chats supplies. -/
structure Host where
  /-- The chats as they are now; `none` if the host does not supply them. -/
  chats : Option (List (String × Chat))
  /-- Texts about characters, by character. -/
  characterTexts : List (String × String)
  /-- Texts for items about characters, by chat and item. -/
  itemTexts : List (String × List (String × String))

namespace Host

def chat? (h : Host) (id : String) : Option Chat := h.chats.bind fun cs => Json.find? cs id

/-- The host supplies a chat from now on. -/
def remember (h : Host) (c : Chat) : Host :=
  { h with chats := h.chats.map fun cs => Json.insert cs c.id c }

/-- The text for an item about a character. -/
def characterText? (h : Host) (item : CharacterItem) (c : Chat) : Option String :=
  ((Json.find? h.itemTexts c.id).bind fun ts => Json.find? ts item.id).orElse fun _ =>
    Json.find? h.characterTexts item.characterId

end Host

/-- What the analyzer remembers. -/
structure Analyzer where
  busy : Bool
  lastResponse : Option String
  lastResults : Option (List Tagged)
  lastFloors : Option String

def Analyzer.idle : Analyzer := ⟨false, none, none, none⟩

/-- New messages by suite and chat; read from the settings at the first need. -/
structure Counter where
  counts : MessageCounts
  loaded : Bool

structure Session where
  storage : Storage
  templates : TemplateConfig
  /-- Removing a variable also removes its slots. -/
  linked : Bool
  model : Completion.Rehearsal
  /-- The configured client, if another endpoint may be set for analyses. -/
  endpoint : Option Completion.Client
  line : Completion.Line
  log : Option CallLog
  host : Host
  analyzer : Analyzer
  queue : Queue
  counter : Counter

/-- A time in whole microseconds. -/
def microseconds : Binary64 → Nat
  | .finite x =>
    let (n, d) := x.ratio
    n * 1000000 / d
  | _ => 0

/-- Where the logs of calls stand. -/
def callLogFolder : String := "data/debug_logs/analysis"

namespace Session

/-- A session with settings on the documents of a shelf; nothing is read yet. -/
def ofConfig (c : Config) (shelf : Shelf) (now : Int) (model : Completion.Rehearsal) : Session where
  storage :=
    ⟨.empty c.storage.rootDocument c.storage.valuesPrefix
      (microseconds c.storage.debounceSeconds) 0, shelf, ⟨now, 0⟩, .start⟩
  templates := c.templates
  linked := true
  model := model
  endpoint := some (.ofConfig c.completion)
  line := ⟨[], []⟩
  log := some (.create callLogFolder c.debug)
  host := ⟨some [], [], []⟩
  analyzer := .idle
  queue := .empty c.queue.snapshotMode
  counter := ⟨[], false⟩

/-- A session begun anew on the same documents; what was not written is lost. -/
def restarted (s : Session) : Session :=
  { s with
    storage := { s.storage with store := s.storage.store.forget }
    analyzer := .idle
    queue := .empty s.queue.snapshotMode
    counter := ⟨[], false⟩ }

variable {α : Type}

/-- Works on the storage. -/
def stored (x : Activity Storage α) : Activity Session α :=
  x.zoom Session.storage fun s t => { t with storage := s }

def onAnalyzer (f : Analyzer → Analyzer) : Action Session Unit :=
  modify fun s => { s with analyzer := f s.analyzer }

def onQueue (f : Queue → Queue) : Action Session Unit :=
  modify fun s => { s with queue := f s.queue }

/-- Changes the queue and tells what came of it. -/
def askQueue (f : Queue → α × Queue) : Action Session α :=
  modifyGet fun s =>
    let (a, q) := f s.queue
    (a, { s with queue := q })

/-- What templates are resolved against for some messages of a chat. -/
def environment (s : Session) (chat : String) (messages : List Message) : Template.Environment :=
  ⟨messages.length, messages, s.templates.aliases, s.templates.floorFormat,
    fun name => (Variables.lookup? s.storage.store name chat).bind (·.2)⟩

/-- Resolves a template with the values in memory. -/
def resolve (chat : String) (messages : List Message) (template : String) :
    Activity Session String := do
  let s ← get
  .ofExcept .ofTemplate
    (Template.resolve (s.environment chat messages) s.templates.maxRounds template)

end Session

end TagLedger
