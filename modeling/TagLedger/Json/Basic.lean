import TagLedger.Number.Binary64

/-!
# Document trees

The values of a JSON document. Integers are unbounded and distinct from numbers with a fraction or
exponent. An object keeps its fields in the order of their first appearance and holds each key once.

    find? (insert fields k v) k = some v            (find?_insert_self)
-/

namespace TagLedger

inductive Json where
  | null
  | bool (b : Bool)
  | int (n : Int)
  | float (x : Binary64)
  | str (s : String)
  | arr (items : List Json)
  | obj (fields : List (String × Json))

namespace Json

instance : Inhabited Json := ⟨.null⟩

/-! ## Ordered fields -/

/-- The first value under a key. -/
def find? {α : Type} (fields : List (String × α)) (key : String) : Option α :=
  (fields.find? (·.1 == key)).map (·.2)

/-- Sets a key: its old value is replaced in place, a new key goes to the end. -/
def insert {α : Type} (fields : List (String × α)) (key : String) (value : α) : List (String × α) :=
  match fields with
  | [] => [(key, value)]
  | (k, v) :: r => if k == key then (k, value) :: r else (k, v) :: insert r key value

def field? (j : Json) (key : String) : Option Json :=
  match j with
  | .obj fields => find? fields key
  | _ => none

/-- Whether the value counts as present: no `null`, `false`, zero, or empty text or collection. -/
def truthy : Json → Bool
  | .null => false
  | .bool b => b
  | .int n => n != 0
  | .float x => !x.isZero
  | .str s => s != ""
  | .arr items => !items.isEmpty
  | .obj fields => !fields.isEmpty

theorem find?_insert_self {α : Type} (fields : List (String × α)) (key : String) (value : α) :
    find? (insert fields key value) key = some value := by
  induction fields with
  | nil => simp [insert, find?]
  | cons f r ih =>
    obtain ⟨k, v⟩ := f
    by_cases h : k == key
    · simp [insert, h, find?]
    · simp only [insert, h, Bool.false_eq_true, if_false]
      simpa [find?, h] using ih

end Json

end TagLedger
