import TagLedger.Session.Analysis

/-!
# Sending tasks

A worker takes the first pending task, finds the chat that it is for, runs its suite and takes it
out of the queue. A run can be given up; the worker then goes on with the next task, unless the queue
was turned off.

    (chatFor t).finish of a task that uses its snapshot is `t.chat` cut at `t.chatLength` floors
-/

namespace TagLedger.Session

/-! ## Queueing -/

/-- Queues a suite for a chat as it is now. -/
def enqueue (suiteId : String) (c : Chat) (name : String) (cause : TriggerKind)
    (useSnapshot : Option Bool) : Activity Session Task := do
  let id ← stored (Storage.newId "task" 9)
  let now ← stored Storage.now
  let task : Task :=
    ⟨id, suiteId, name, .pending, c.length, c.id, now, cause, useSnapshot, some c⟩
  onQueue (·.enqueue task)
  return task

/-- Queues a suite with its own name and way of taking the chat. -/
def enqueueSuite (s : Suite) (c : Chat) (cause : TriggerKind) : Activity Session Task :=
  enqueue s.id c s.name cause s.useSnapshot

/-! ## Running -/

/-- Who supplies a chat as it is now, if anybody can; that may take time. -/
abbrev Fetch := String → Activity Session (Option Chat)

/-- The host supplies chats at once. -/
def hostFetch : Fetch := fun id => do return (← get).host.chat? id

/-- The chat that a task is run on: as it was when the task was queued, or as it is now. -/
def chatFrom (fetch : Fetch) (t : Task) : Activity Session Chat := do
  let live ← if t.useSnapshot.getD (← get).queue.snapshotMode then pure none else fetch t.chatId
  return match live with
    | some c => c
    | none => (t.chat.getD ⟨t.chatId, [], none⟩).truncated t.chatLength

def chatFor (t : Task) : Activity Session Chat := chatFrom hostFetch t

/-- Runs the suite of a task on a chat. -/
def runOn (t : Task) (c : Chat) : Activity Session AnalysisResult := do
  let r ← run t.suiteId c
  onQueue (·.note r)
  return r

/-- A worker finds the chat of a task and runs its suite. -/
def runTask (fetch : Fetch) (w : Nat) (t : Task) : Activity Session AnalysisResult := do
  let c ← chatFrom fetch t
  onQueue (·.launch w)
  .pause .turn
  runOn t c

/-- The task of a worker leaves the queue, and the worker waits for another one. -/
def afterTask (w : Nat) (t : Task) (s : Session) : Session :=
  { s with queue := (s.queue.leave t.id).rest w s.storage.clock.elapsed }

/-- A worker takes a task, runs it, and takes it out of the queue; a run that fails or is given up is
no failure of the worker. -/
def work (fetch : Fetch) (w : Nat) (t : Task) : Activity Session Unit := do
  onQueue (·.take w t.id)
  tryCatch (discard (runTask fetch w t)) fun _ => pure ()
  modify (afterTask w t)

/-- The task that a worker is to begin with now. -/
def nextTask? (s : Session) : Option Task := if s.queue.running then s.queue.next? else none

/-! ## The worker -/

/-- Turns the queue on. -/
def start : Activity Session Unit :=
  modify fun s => { s with queue := s.queue.start s.storage.clock.elapsed }

/-- Turns the queue off, giving up its run, and waits until its worker has ended. -/
def stop : Activity Session Unit := do
  onQueue Queue.stop
  match (← get).queue.latest with
  | none => pure ()
  | some w =>
    .pause (.workerEnd w)
    onQueue fun q => { q with latest := none }

/-- Waits until no task is pending or run. -/
def join : Activity Session Unit := do
  if !(← get).queue.isIdle then .pause .queueIdle

end TagLedger.Session
