import TagLedger.Session.Sending
import TagLedger.Tag.Keyword

/-!
# Triggers

A new message may make suites run: those that fire after a number of messages in a chat, and those
that fire on a keyword. The counts are kept in the settings, so they outlive a session.

    countOf (bump counts suite chat) suite chat = countOf counts suite chat + 1     (countOf_bump)
-/

namespace TagLedger.Session

/-! ## Counts -/

def countOf (counts : MessageCounts) (suiteId chat : String) : Int :=
  ((Json.find? counts suiteId).bind fun m => Json.find? m chat).getD 0

def setCount (counts : MessageCounts) (suiteId chat : String) (n : Int) : MessageCounts :=
  Json.insert counts suiteId (Json.insert ((Json.find? counts suiteId).getD []) chat n)

/-- One message more. -/
def bump (counts : MessageCounts) (suiteId chat : String) : MessageCounts :=
  setCount counts suiteId chat (countOf counts suiteId chat + 1)

theorem countOf_setCount (counts : MessageCounts) (suiteId chat : String) (n : Int) :
    countOf (setCount counts suiteId chat n) suiteId chat = n := by
  simp [countOf, setCount, Json.find?_insert_self]

theorem countOf_bump (counts : MessageCounts) (suiteId chat : String) :
    countOf (bump counts suiteId chat) suiteId chat = countOf counts suiteId chat + 1 :=
  countOf_setCount counts suiteId chat _

/-- Reads the counts at the first need. -/
def loadCounts : Activity Session Unit := do
  if !(← get).counter.loaded then
    let settings ← stored Storage.settings
    modify fun s => { s with counter := ⟨settings.counts, true⟩ }

/-- Puts the counts into the settings. -/
def saveCounts : Activity Session Unit := do
  let settings ← stored Storage.settings
  let counts := (← get).counter.counts
  stored (Storage.saveSettings { settings with counts := counts })

def onCounts (f : MessageCounts → MessageCounts) : Action Session Unit :=
  modify fun s => { s with counter := { s.counter with counts := f s.counter.counts } }

/-! ## Firing -/

/-- Messages between two runs of a suite that does not say. -/
def defaultInterval : Int := 5

def intervalOf (t : Trigger) : Int :=
  match t.interval with
  | some n => if n = 0 then defaultInterval else n
  | none => defaultInterval

/-- What a new message does for a suite. -/
def notice (c : Chat) (newest : String) (s : Suite) : Activity Session (Option Task) := do
  if !s.enabled then return none
  match s.trigger.kind with
  | .manual => return none
  | .keyword =>
    if mentions newest s.trigger.keywords then some <$> enqueueSuite s c .keyword else return none
  | .interval =>
    onCounts fun m => bump m s.id c.id
    if countOf (← get).counter.counts s.id c.id < intervalOf s.trigger then return none
    let task ← enqueueSuite s c .interval
    onCounts fun m => setCount m s.id c.id 0
    return some task

/-- What a new message does for suites, in order. -/
def noticeAll (c : Chat) (newest : String) : List Suite → Activity Session (List Task)
  | [] => return []
  | s :: r => do
    let task ← notice c newest s
    return task.toList ++ (← noticeAll c newest r)

/-- Handles the last message of a chat; the tasks that were queued for it. -/
def newMessage (c : Chat) : Activity Session (List Task) := do
  loadCounts
  if !(← stored Storage.settings).enabled then return []
  let newest := (c.messages.getLast?.map (·.text)).getD ""
  let suites ← stored Suites.list
  let tasks ← noticeAll c newest suites
  if suites.any fun s => s.enabled && s.trigger.kind = .interval then saveCounts
  return tasks

/-- Queues a suite on request, if there is one with this identifier. -/
def trigger (suiteId : String) (c : Chat) (cause : TriggerKind) :
    Activity Session (Option Task) := do
  match ← stored (Suites.find? suiteId) with
  | none => return none
  | some s => some <$> enqueueSuite s c cause

/-- Starts to count anew, if the suite was counted at all. -/
def resetCount (suiteId chat : String) : Activity Session Unit := do
  if (Json.find? (← get).counter.counts suiteId).isSome then
    onCounts fun m => setCount m suiteId chat 0
    saveCounts

end TagLedger.Session
