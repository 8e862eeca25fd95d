import TagLedger.Session.Trigger
import TagLedger.Store.Timer

/-!
# Schedules

Activities of several callers and of the workers take turns on one session: each goes on until it has
to wait, and those whose wait is over go on in the order in which they got ready, after a worker that
has a task to begin with. A schedule runs until nobody can go on without time passing.

    (s.call xs).1.length = xs.length                                    (length_call)
-/

namespace TagLedger

/-! ## Strands -/

inductive Owner where
  | worker (n : Nat)
  /-- One of the activities that were started together. -/
  | caller (n : Nat)
  deriving DecidableEq

def Owner.isWorker : Owner → Bool
  | .worker _ => true
  | .caller _ => false

/-- The rest of an activity. A worker gives no answer. -/
structure Strand (α : Type) where
  owner : Owner
  resume : Signal → Session → Progress Session (Option α)

structure Schedule (α : Type) where
  session : Session
  ready : List (Signal × Strand α)
  blocked : List (Wait × Strand α)
  answers : List (Nat × Except Failure α)

namespace Schedule

variable {α : Type}

def ofSession (s : Session) : Schedule α := ⟨s, [], [], []⟩

/-- A worker waits for a task or works on one. -/
def hasWorker (s : Schedule α) (w : Nat) : Bool :=
  s.session.queue.idle.any (·.1 == w) || s.ready.any (·.2.owner = .worker w) ||
    s.blocked.any (·.2.owner = .worker w)

/-! ## Getting ready -/

/-- The runs are given up for which that was asked. -/
def cancel (s : Schedule α) : Schedule α :=
  let t := s.session
  let isAsked (x : Strand α) : Bool := t.queue.asked.any (x.owner = .worker ·)
  { s with
    session := { t with queue := { t.queue with asked := [] } }
    ready := (s.ready.map fun r => if isAsked r.2 then (.cancel, r.2) else r) ++
      (s.blocked.filter (isAsked ·.2)).map fun b => (.cancel, b.2)
    blocked := s.blocked.filter (!isAsked ·.2) }

/-- The first that waits for a lock gets ready when the lock is handed to it. -/
def grant (s : Schedule α) (key : Lock) : Schedule α :=
  match s.blocked.find? (·.1 = .lock key) with
  | none => s
  | some b =>
    { s with
      ready := s.ready ++ [(.proceed, b.2)]
      blocked := s.blocked.eraseP (·.1 = .lock key) }

/-- Hands over the locks that were given up. -/
def grantAll (s : Schedule α) : Schedule α :=
  let t := s.session
  let store := t.storage.store
  store.granted.foldl grant
    { s with session := { t with storage := { t.storage with
      store := { store with granted := [] } } } }

/-- Whether a wait ends without time passing; locks aside. -/
def isOver (s : Schedule α) : Wait → Bool
  | .turn => true
  | .gate => s.session.model.gateOpen
  | .workerEnd w => !s.hasWorker w
  | .lock _ | .queueIdle => false

/-- Those whose wait is over get ready. -/
def wake (s : Schedule α) : Schedule α :=
  let s := s.cancel.grantAll
  { s with
    ready := s.ready ++ (s.blocked.filter fun b => s.isOver b.1).map fun b => (.proceed, b.2)
    blocked := s.blocked.filter fun b => !s.isOver b.1 }

/-! ## Going on -/

/-- What an activity that came so far leaves behind. -/
def settle (s : Schedule α) (owner : Owner) : Progress Session (Option α) → Schedule α
  | .waiting t w r => wake { s with session := t, blocked := s.blocked ++ [(w, ⟨owner, r⟩)] }
  | .done t r =>
    let s := { s with session := t }
    match owner, r with
    | .caller n, .ok (some a) => wake { s with answers := s.answers ++ [(n, .ok a)] }
    | .caller n, .error e => wake { s with answers := s.answers ++ [(n, .error e)] }
    | _, _ => wake s

/-- Changes the session from outside. -/
def onStorage (s : Schedule α) (x : Action Storage Unit) : Schedule α :=
  { s with session := { s.session with storage := (x.run.run s.session.storage).2 } }

/-- The time that passes before one who waits for the queue looks at it again, in microseconds. -/
def pollTime : Nat := 10000

def isPoll (b : Wait × Strand α) : Bool := b.1 = .queueIdle

/-- Those who wait for the queue find it idle, a little later. -/
def poll (s : Schedule α) : Schedule α :=
  let s := s.onStorage (Storage.elapse pollTime)
  { s with
    ready := (s.blocked.filter isPoll).map fun b => (.proceed, b.2)
    blocked := s.blocked.filter fun b => !isPoll b }

/-- Those who wait for a task look for one. -/
def look (s : Schedule α) : Schedule α :=
  let t := s.session
  { s with session := { t with queue := t.queue.look t.storage.clock.elapsed } }

/-- The worker that has waited longest begins with the first pending task. -/
def begin? (s : Schedule α) : Option (Schedule α) :=
  match Session.nextTask? s.session, s.session.queue.idle with
  | some t, (w, _) :: _ =>
    let x := Session.work Session.hostFetch w t
    some (s.settle (.worker w) (((fun _ => none) <$> x) s.session))
  | _, _ => none

/-- Runs until nobody can go on, at most so many turns. -/
def drain : Nat → Schedule α → Schedule α
  | 0, s => s
  | fuel + 1, s =>
    let s := s.look
    match s.begin?, s.ready with
    | some t, _ => drain fuel t
    | none, (signal, strand) :: rest =>
      drain fuel (({ s with ready := rest }).settle strand.owner
        (strand.resume signal s.session))
    | none, [] =>
      if s.blocked.any isPoll && s.session.queue.isIdle then drain fuel s.poll
      else s

/-- More turns than any activities take between two waits for something outside. -/
def turnLimit : Nat := 1000000

def run (s : Schedule α) : Schedule α := drain turnLimit s.wake

/-! ## Calls -/

/-- Starts activities one after another, each up to its first wait. -/
def startFrom (s : Schedule α) (n : Nat) : List (Activity Session α) → Schedule α
  | [] => s
  | x :: r => startFrom (s.settle (.caller n) ((some <$> x) s.session)) (n + 1) r

def answerOf (s : Schedule α) (n : Nat) : Option (Except Failure α) :=
  (s.answers.find? (·.1 == n)).map (·.2)

/-- Starts activities together; their answers in order, none from those that cannot end. -/
def call (s : Schedule α) (xs : List (Activity Session α)) :
    List (Option (Except Failure α)) × Schedule α :=
  let t := (s.startFrom 0 xs).run
  ((List.range xs.length).map t.answerOf,
    { t with answers := [], blocked := t.blocked.filter (·.2.owner.isWorker) })

/-- Changes the session from outside and lets everybody go on. -/
def change (s : Schedule α) (f : Session → Session) : Schedule α :=
  ({ s with session := f s.session }).run

/-- Lets so many microseconds pass. -/
def sleep (s : Schedule α) (time : Nat) : Schedule α := (s.onStorage (Storage.elapse time)).run

theorem length_call (s : Schedule α) (xs : List (Activity Session α)) :
    (s.call xs).1.length = xs.length := by
  simp [call]

end Schedule

end TagLedger
