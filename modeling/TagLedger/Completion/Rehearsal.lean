/-!
# Rehearsed replies

In place of a model, prepared replies can be given one after another; the last one is given again
and again. The prompts are kept, and replies may be held back.

    m.reply.1 = m.replies.head?, or an empty text if there is none
-/

namespace TagLedger.Completion

inductive Prepared where
  | text (s : String)
  /-- The model fails with these words. -/
  | failure (words : String)

structure Rehearsal where
  replies : List Prepared
  /-- The latest first. -/
  prompts : List String
  /-- Replies are given; otherwise who asks has to wait. -/
  gateOpen : Bool
  healthy : Bool

namespace Rehearsal

/-- The name under which prepared replies are given. -/
def model : String := "fake-model"

def ofReplies (replies : List Prepared) : Rehearsal := ⟨replies, [], true, true⟩

/-- Notes a prompt. -/
def hear (m : Rehearsal) (prompt : String) : Rehearsal := { m with prompts := prompt :: m.prompts }

/-- The next reply. -/
def reply (m : Rehearsal) : Prepared × Rehearsal :=
  match m.replies with
  | [] => (.text "", m)
  | [r] => (r, m)
  | r :: rest => (r, { m with replies := rest })

end Rehearsal

end TagLedger.Completion
