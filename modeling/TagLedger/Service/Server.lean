import TagLedger.Service.Analyses

/-!
# The service

The service opens the storage, turns the worker on and answers requests until it is closed, which
stops the worker and writes what is left.

    what cannot be written at the end is given up, not reported          (`close`)
-/

namespace TagLedger.Service

/-- Every endpoint, in the order in which they are tried. -/
def endpoints : List Endpoint :=
  healthEndpoints ++ variableEndpoints ++ valueEndpoints ++ messageEndpoints ++ suiteEndpoints ++
    analysisEndpoints ++ settingsEndpoints ++ queueEndpoints

/-- Loads what is stored and turns the worker on. -/
def start : Activity Session Unit := do
  let _ ← Session.stored Storage.load
  Session.start
  Session.loadCounts

/-- Answers a request. -/
def answer (r : Request) : Activity Session Response := handle endpoints r

/-- Turns the worker off and writes what was not written yet. -/
def close : Activity Session Unit := do
  Session.stop
  let _ ← Session.stored (Storage.noting Storage.close : Action Storage _)

end TagLedger.Service
