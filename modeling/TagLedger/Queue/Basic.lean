import TagLedger.Analysis.Result
import TagLedger.Queue.Task

/-!
# The send queue

Tasks wait in the order in which they were queued. A worker takes the first one that is pending,
runs it and takes it out, whatever became of the run. A paused task stays where it is. Whoever
watches the queue is shown every change.

A worker is hired when the queue is turned on. It is the only one unless the queue is turned on again
before it has ended; the run that is given up on request is then the latest one.

    q.next? = some t → t ∈ q.tasks ∧ t.status = .pending                 (mem_of_next?)
    (q.leave id).tasks = q.tasks.filter (·.id ≠ id)
-/

namespace TagLedger

/-- One who watches the queue. -/
inductive Watcher where
  /-- Keeps what it is shown. -/
  | recorder
  /-- Fails whenever it is shown something, which nobody minds. -/
  | faulty
  deriving DecidableEq

structure Queue where
  /-- First come, first served. -/
  tasks : List Task
  /-- Every task that was ever queued. -/
  issued : List Task
  /-- Workers look for tasks. -/
  running : Bool
  /-- Tasks use the chat as it was when they were queued, unless they say otherwise. -/
  snapshotMode : Bool
  /-- So many workers were hired, and are numbered in that order. -/
  hired : Nat
  /-- The worker that ends when the queue is turned off. -/
  latest : Option Nat
  /-- Who waits for a task, first come, and when each looks for one by itself. -/
  idle : List (Nat × Nat)
  /-- A task became pending, and those who wait have not looked yet. -/
  news : Bool
  /-- The worker whose run is given up on request. -/
  flying : Option Nat
  /-- The workers whose runs are to be given up. -/
  asked : List Nat
  lastResult : Option AnalysisResult
  watchers : List Watcher
  /-- What the recorder was shown, the latest first: the suites with the statuses of their tasks. -/
  shown : List (List (String × TaskStatus))

namespace Queue

def empty (snapshotMode : Bool) : Queue :=
  ⟨[], [], false, snapshotMode, 0, none, [], false, none, [], none, [], []⟩

/-! ## Questions -/

def find? (q : Queue) (id : String) : Option Task := q.tasks.find? (·.id == id)

/-- The task that is taken next. -/
def next? (q : Queue) : Option Task := q.tasks.find? (·.status = .pending)

/-- The first task of a suite. -/
def ofSuite? (q : Queue) (suiteId : String) : Option Task := q.tasks.find? (·.suiteId == suiteId)

def isProcessing (q : Queue) : Bool := q.tasks.any (·.status = .processing)

/-- No task waits for its run or is run. -/
def isIdle (q : Queue) : Bool := q.tasks.all (·.status = .paused)

/-- The suites with the statuses of their tasks, in order. -/
def overview (q : Queue) : List (String × TaskStatus) := q.tasks.map fun t => (t.suiteId, t.status)

/-- Where the first task of a suite stands; a pending one by its place among those not paused. -/
def standing (q : Queue) (suiteId : String) : Standing :=
  match q.ofSuite? suiteId with
  | none => .idle
  | some t =>
    if t.status = .pending then
      let active := q.tasks.filter (·.status ≠ .paused)
      .waiting (active.findIdx (·.suiteId == suiteId) + 1) t
    else .other t

/-! ## Changes -/

/-- Shows the queue to those who watch it. -/
def notify (q : Queue) : Queue :=
  if q.watchers.contains .recorder then { q with shown := q.overview :: q.shown } else q

def watch (q : Queue) (w : Watcher) : Queue :=
  if q.watchers.contains w then q else { q with watchers := q.watchers ++ [w] }

def unwatch (q : Queue) (w : Watcher) : Queue :=
  { q with watchers := q.watchers.filter (· ≠ w) }

/-- Queues a task. -/
def enqueue (q : Queue) (t : Task) : Queue :=
  notify { q with tasks := q.tasks ++ [t], issued := q.issued ++ [t], news := true }

/-- Gives a task another status. -/
def setStatus (q : Queue) (id : String) (status : TaskStatus) : Queue :=
  { q with tasks := q.tasks.map fun t => if t.id == id then { t with status := status } else t }

/-- A worker takes a task. -/
def take (q : Queue) (w : Nat) (id : String) : Queue :=
  notify { q.setStatus id .processing with idle := q.idle.filter (·.1 ≠ w) }

/-- The run of a worker's task starts. -/
def launch (q : Queue) (w : Nat) : Queue := { q with flying := some w }

/-- The run of a task ended with a result. -/
def note (q : Queue) (r : AnalysisResult) : Queue := { q with lastResult := some r }

/-- The task leaves the queue, however its run ended. -/
def leave (q : Queue) (id : String) : Queue :=
  notify { q with tasks := q.tasks.filter (·.id != id), flying := none }

/-- Asks for the run in flight to be given up; whether there is one. -/
def abort (q : Queue) : Bool × Queue :=
  match q.flying with
  | none => (false, q)
  | some w => (true, { q with asked := w :: q.asked })

/-- Takes a task out of the queue, giving up its run; whether it was there. -/
def remove (q : Queue) (id : String) : Bool × Queue :=
  match q.find? id with
  | none => (false, q)
  | some t =>
    let q := if t.status = .processing then q.abort.2 else q
    (true, notify { q with tasks := q.tasks.filter (·.id != id) })

/-- Takes out the first task of a suite. -/
def removeSuite (q : Queue) (suiteId : String) : Bool × Queue :=
  match q.ofSuite? suiteId with
  | none => (false, q)
  | some t => q.remove t.id

/-- Keeps a task from being run; one that is run already is not affected. -/
def pause (q : Queue) (id : String) : Bool × Queue :=
  match q.find? id with
  | none => (false, q)
  | some t =>
    if t.status = .processing then (false, q) else (true, (q.setStatus id .paused).notify)

def resume (q : Queue) (id : String) : Bool × Queue :=
  match q.find? id with
  | none => (false, q)
  | some t =>
    if t.status = .paused then (true, notify { q.setStatus id .pending with news := true })
    else (false, q)

/-- Takes everything out, giving up the run in flight. -/
def clear (q : Queue) : Queue := notify { q.abort.2 with tasks := [] }

/-! ## Workers -/

/-- The time for which a worker waits before it looks for a task by itself, in microseconds. -/
def lookTime : Nat := 1000000

/-- Turns the queue on, with another worker. -/
def start (q : Queue) (now : Nat) : Queue :=
  if q.running then q
  else { q with
    running := true, hired := q.hired + 1, latest := some q.hired
    idle := q.idle ++ [(q.hired, now + lookTime)] }

/-- Turns the queue off. The run in flight is given up, and so is what the latest worker does. -/
def stop (q : Queue) : Queue :=
  let q := { q.abort.2 with running := false }
  match q.latest with
  | none => q
  | some w =>
    if q.idle.any (·.1 == w) then { q with idle := q.idle.filter (·.1 ≠ w) }
    else { q with asked := w :: q.asked }

/-- A worker is done with a task: it waits for another one, unless the queue was turned off. -/
def rest (q : Queue) (w now : Nat) : Queue :=
  if q.running then { q with idle := q.idle ++ [(w, now + lookTime)] } else q

/-- Those who wait look for a task if they were told to or have waited long enough. They wait on, or
end if the queue was turned off. -/
def look (q : Queue) (now : Nat) : Queue :=
  let looks (due : Nat) : Bool := q.news || due ≤ now
  { q with
    news := false
    idle := (q.idle.filter fun (_, due) => q.running || !looks due).map fun (w, due) =>
      (w, if q.news then now + lookTime
        else if due ≤ now then due + lookTime * ((now - due) / lookTime + 1) else due) }

/-! ## Lemmas -/

theorem mem_of_next? {q : Queue} {t : Task} (h : q.next? = some t) :
    t ∈ q.tasks ∧ t.status = .pending :=
  ⟨List.mem_of_find?_eq_some h, by simpa using List.find?_some h⟩

@[simp] theorem tasks_notify (q : Queue) : q.notify.tasks = q.tasks := by
  unfold notify; split <;> rfl

@[simp] theorem tasks_enqueue (q : Queue) (t : Task) : (q.enqueue t).tasks = q.tasks ++ [t] := by
  simp [enqueue]

@[simp] theorem tasks_leave (q : Queue) (id : String) :
    (q.leave id).tasks = q.tasks.filter (·.id != id) := by
  simp [leave]

end Queue

end TagLedger
