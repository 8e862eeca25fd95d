import TagLedger.Failure

/-!
# Activities

An action changes a state at once and ends with a value or a failure. An activity may also wait: it
then gives up the state, and goes on later from whatever the state is by then. While it waits it can
be cancelled, which it sees as a failure. `finish` answers every wait at once.

    (x >>= f).finish = x.finish >>= fun a => (f a).finish          (finish_bind)
-/

namespace TagLedger

/-! ## Actions -/

/-- A change of a state that happens at once. -/
abbrev Action (σ : Type) := ExceptT Failure (StateM σ)

/-! ## Waiting -/

/-- How a wait ends. -/
inductive Signal where
  | proceed
  | cancel
  deriving DecidableEq

/-- Something that one activity at a time may hold. -/
inductive Lock where
  | root (epoch : Nat)
  | chat (epoch : Nat) (id : String)
  deriving DecidableEq

/-- What an activity waits for. -/
inductive Wait where
  /-- Its next turn. -/
  | turn
  /-- A lock that is handed over to it. -/
  | lock (key : Lock)
  /-- The model may be asked. -/
  | gate
  /-- No task of the queue waits or runs. -/
  | queueIdle
  /-- A worker of the queue has ended. -/
  | workerEnd (worker : Nat)
  deriving DecidableEq

/-- How far an activity has come. -/
inductive Progress (σ α : Type) where
  | done (state : σ) (result : Except Failure α)
  | waiting (state : σ) (wait : Wait) (resume : Signal → σ → Progress σ α)

namespace Progress

variable {σ τ α β : Type}

/-- Goes on after a value. -/
def bind : Progress σ α → (α → σ → Progress σ β) → Progress σ β
  | .done s (.ok a), f => f a s
  | .done s (.error e), _ => .done s (.error e)
  | .waiting s w r, f => .waiting s w fun g s => (r g s).bind f

/-- Goes on after a value or a failure. -/
def attempt : Progress σ α → (Except Failure α → σ → Progress σ β) → Progress σ β
  | .done s r, f => f r s
  | .waiting s w r, f => .waiting s w fun g s => (r g s).attempt f

/-- Answers every wait at once. -/
def finish : Progress σ α → Except Failure α × σ
  | .done s r => (r, s)
  | .waiting s _ r => (r .proceed s).finish

/-- The same on a part of a larger state. -/
def zoom (get : τ → σ) (set : σ → τ → τ) : Progress σ α → τ → Progress τ α
  | .done s r, t => .done (set s t) r
  | .waiting s w r, t => .waiting (set s t) w fun g t => (r g (get t)).zoom get set t

end Progress

/-! ## Activities -/

/-- What is done to a state, with waits in between. -/
def Activity (σ α : Type) := σ → Progress σ α

namespace Activity

variable {σ τ α β : Type}

instance : Monad (Activity σ) where
  pure a := fun s => .done s (.ok a)
  bind x f := fun s => (x s).bind f

/-- An action as an activity without waits. -/
def ofAction (x : Action σ α) : Activity σ α := fun s =>
  let (r, s) := x.run.run s
  .done s r

instance : MonadLift (Action σ) (Activity σ) := ⟨ofAction⟩

def fail (e : Failure) : Activity σ α := fun s => .done s (.error e)

instance : MonadExcept Failure (Activity σ) where
  throw := fail
  tryCatch x f := fun s => (x s).attempt fun
    | .ok a, s => .done s (.ok a)
    | .error e, s => f e s

instance : MonadStateOf σ (Activity σ) where
  get := fun s => .done s (.ok s)
  set s := fun _ => .done s (.ok ())
  modifyGet f := fun s => let (a, s) := f s; .done s (.ok a)

/-- Waits; cancelling fails. -/
def pause (w : Wait) : Activity σ Unit := fun s => .waiting s w fun
  | .proceed, s => .done s (.ok ())
  | .cancel, s => .done s (.error .cancelled)

/-- Does `last` after `x` whatever became of it. -/
def ensuring (x : Activity σ α) (last : Action σ Unit) : Activity σ α := fun s =>
  (x s).attempt fun r s =>
    match last.run.run s with
    | (.ok _, s) => .done s r
    | (.error e, s) => .done s (.error e)

/-- Fails or goes on as a result says. -/
def ofExcept {ε : Type} (f : ε → Failure) (r : Except ε α) : Activity σ α :=
  match r with
  | .ok a => pure a
  | .error e => fail (f e)

/-- The activity with every wait answered at once. -/
def finish (x : Activity σ α) : Action σ α := ExceptT.mk fun s => (x s).finish

/-- The same on a part of a larger state. -/
def zoom (get : τ → σ) (set : σ → τ → τ) (x : Activity σ α) : Activity τ α := fun t =>
  (x (get t)).zoom get set t

end Activity

/-! ## Lemmas -/

namespace Progress

variable {σ α β : Type}

theorem finish_bind (p : Progress σ α) (f : α → σ → Progress σ β) :
    (p.bind f).finish = match p.finish with
      | (.ok a, s) => (f a s).finish
      | (.error e, s) => (.error e, s) := by
  induction p with
  | done s r => cases r <;> rfl
  | waiting s w r ih => exact ih .proceed s

end Progress

namespace Activity

variable {σ α β : Type}

theorem finish_bind (x : Activity σ α) (f : α → Activity σ β) :
    (x >>= f).finish = x.finish >>= fun a => (f a).finish := by
  funext s
  refine (Progress.finish_bind (x s) f).trans ?_
  change _ = (match (x s).finish with
    | (r, t) => ExceptT.bindCont (fun a => (f a).finish) r t)
  rcases (x s).finish with ⟨r, t⟩
  cases r <;> rfl

end Activity

end TagLedger
