import TagLedger.Suite.Document
import TagLedger.Transcript.Message

/-!
# Tasks of the send queue

A task is a suite that waits for its run on a chat. It keeps the chat as it was when the task was
queued; the copy is not part of the task's document.
-/

namespace TagLedger

open Schema

inductive TaskStatus where
  | pending
  | processing
  | paused
  deriving DecidableEq

structure Task where
  id : String
  suiteId : String
  suiteName : String
  status : TaskStatus
  chatLength : Int
  chatId : String
  createdAt : Int
  cause : TriggerKind
  /-- Overrides the queue's way of taking the chat. -/
  useSnapshot : Option Bool
  chat : Option Chat
  deriving DecidableEq

/-- Where the first task of a suite stands. -/
inductive Standing where
  | idle
  | waiting (position : Nat) (task : Task)
  | other (task : Task)
  deriving DecidableEq

/-! ## Documents -/

def TaskStatus.named : List (String × TaskStatus) :=
  [("pending", .pending), ("processing", .processing), ("paused", .paused)]

def TaskStatus.text : TaskStatus → String
  | .pending => "pending"
  | .processing => "processing"
  | .paused => "paused"

def Task.document (t : Task) : Json :=
  .obj [("id", .str t.id), ("suiteId", .str t.suiteId), ("suiteName", .str t.suiteName),
    ("status", .str t.status.text), ("chatLengthSnapshot", .int t.chatLength),
    ("chatIdSnapshot", .str t.chatId), ("createdAt", .int t.createdAt),
    ("triggerType", .str t.cause.text), ("useSnapshot", Json.ofOption .bool t.useSnapshot)]

def statusDocument (status : String) (position : Option Int) (task : Option Task) : Json :=
  .obj [("status", .str status), ("position", Json.ofOption .int position),
    ("task", Json.ofOption Task.document task)]

def Standing.document : Standing → Json
  | .idle => statusDocument "idle" none none
  | .waiting n t => statusDocument "pending" (some n) (some t)
  | .other t => statusDocument t.status.text none (some t)

/-- Reads a task; one without an identifier gets `fresh`. -/
def Task.decode (fresh : String) : Decoder Task :=
  record "QueueTask" fun r =>
    Task.mk <$> r.optional "id" fresh text
      <*> r.required ⟨"suiteId", "suite_id"⟩ text
      <*> r.optional ⟨"suiteName", "suite_name"⟩ "" text
      <*> r.optional "status" .pending (oneOf TaskStatus.named)
      <*> r.optional ⟨"chatLengthSnapshot", "chat_length_snapshot"⟩ 0 integer
      <*> r.optional ⟨"chatIdSnapshot", "chat_id_snapshot"⟩ "" text
      <*> r.optional ⟨"createdAt", "created_at"⟩ r.context.now integer
      <*> r.optional ⟨"triggerType", "trigger_type"⟩ .manual (oneOf TriggerKind.named)
      <*> r.optional ⟨"useSnapshot", "use_snapshot"⟩ none (nullable truth)
      <*> r.optional "chat" none (nullable Chat.decode)

/-- The document of a status that was read back: a word, a position and a task. -/
def readStatus (fresh : String) : Decoder Json :=
  record "SuiteStatus" fun r =>
    statusDocument <$> r.required "status"
        (oneOf (["idle", "pending", "processing", "paused"].map fun s => (s, s)))
      <*> r.optional "position" none (nullable integer)
      <*> r.optional "task" none (nullable (Task.decode fresh))

end TagLedger
