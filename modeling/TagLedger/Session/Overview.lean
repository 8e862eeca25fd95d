import TagLedger.Session.Sending

/-!
# A session at a glance

What a session has in memory, for those who look at it from outside: what is not written yet, which
chats are loaded, the queue, and the last analysis.
-/

namespace TagLedger

/-- The suites of a queue with the statuses of their tasks. -/
def Queue.document (tasks : List (String × TaskStatus)) : Json :=
  .arr (tasks.map fun (id, s) => .arr [.str id, .str s.text])

def Session.overview (s : Session) : Json :=
  let store := s.storage.store
  let shelf := s.storage.shelf
  .obj [("dirty", .bool store.isDirty),
    ("cached_chats", .arr (store.values.map fun (chat, _) => .str chat)),
    ("documents", .arr ((shelf.documents.map (·.1)).mergeSort.map .str)),
    ("writes", .int shelf.writes), ("queue", Queue.document s.queue.overview),
    ("queue_length", .int s.queue.tasks.length), ("processing", .bool s.queue.isProcessing),
    ("last_result", Json.ofOption AnalysisResult.document s.queue.lastResult),
    ("analyzing", .bool s.analyzer.busy),
    ("last_floor_range", Json.ofOption .str s.analyzer.lastFloors),
    ("last_response", Json.ofOption .str s.analyzer.lastResponse),
    ("last_results", Json.ofOption (fun rs => .arr (rs.map Tagged.document))
      s.analyzer.lastResults)]

end TagLedger
