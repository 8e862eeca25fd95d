import TagLedger.Store.Basic

/-!
# Timers

Changes that wait are written when their timer has run out. Time passes only on request, and timers
run out in the order of their times.

    (elapse n).run moves `clock.elapsed` on by `n`
-/

namespace TagLedger.Storage

inductive Timer where
  | root
  | values

/-- When a timer runs out, if it is set. -/
def Timer.due? (s : Store) : Timer → Option Nat
  | .root => s.rootTimer
  | .values => s.valuesTimer

/-- What a timer does when it runs out. -/
def Timer.fire : Timer → Action Storage Unit
  | .root => saveInTurn
  | .values => saveValuesInTurn

/-- A timer runs out, if it is due by a time. -/
def Timer.fireBy (limit : Nat) (t : Timer) : Action Storage Unit := do
  match t.due? (← get).store with
  | some n => if n ≤ limit then t.fire
  | none => pure ()

/-- The timers in the order in which they run out. -/
def timers (s : Store) : List Timer :=
  match s.rootTimer, s.valuesTimer with
  | some r, some v => if v < r then [.values, .root] else [.root, .values]
  | _, _ => [.root, .values]

/-- Lets so many microseconds pass. -/
def elapse (time : Nat) : Action Storage Unit := do
  let s ← get
  let limit := s.clock.elapsed + time
  (timers s.store).forM (Timer.fireBy limit)
  modify fun s => { s with clock := { s.clock with elapsed := limit } }

end TagLedger.Storage
