import TagLedger.Schema.Scalar

/-!
# Reading records

A record is an object. A field is found under the name it has in documents or under its plain name,
the former first, and issues name the key it was found under. Unknown fields are passed over and
missing ones take their defaults.
-/

namespace TagLedger.Schema

def Step.document : Step → Json
  | .key k => .str k
  | .index i => .int i

/-- Where an issue is and what kind it has. -/
def Issue.document (i : Issue) : Json :=
  .obj [("loc", .arr (i.path.map Step.document)), ("type", .str i.kind.code)]

/-- The names of a field: in documents, and plain. -/
structure FieldName where
  document : String
  plain : String

/-- A field with a single name. -/
def FieldName.same (name : String) : FieldName := ⟨name, name⟩

instance : Coe String FieldName := ⟨FieldName.same⟩

/-- The fields of an object on their way to a record. -/
structure Fields where
  entries : List (String × Json)
  context : Context

/-- The value of a field with the key it stands under. -/
def Fields.get? (r : Fields) (name : FieldName) : Option (String × Json) :=
  match Json.find? r.entries name.document with
  | some j => some (name.document, j)
  | none => (Json.find? r.entries name.plain).map fun j => (name.plain, j)

variable {α : Type}

def Fields.required (r : Fields) (name : FieldName) (d : Decoder α) : Checked α :=
  match r.get? name with
  | some (key, j) => (d r.context j).below (.key key)
  | none => .invalid [⟨[.key name.document], .missing⟩]

def Fields.optional (r : Fields) (name : FieldName) (default : α) (d : Decoder α) : Checked α :=
  match r.get? name with
  | some (key, j) => (d r.context j).below (.key key)
  | none => .valid default

/-- A record called `name`, built from its fields. -/
def record (name : String) (build : Fields → Checked α) : Decoder α
  | ctx, .obj entries => build ⟨entries, ctx⟩
  | ctx, _ => .issue (if ctx.fieldsOnly then .noFields else .notRecord name)

/-- `null` or a value. -/
def nullable (d : Decoder α) : Decoder (Option α)
  | _, .null => .valid none
  | ctx, j => (d ctx j).map some

/-- Pairs each item with its position, counted from `i`. -/
def numbered : Nat → List α → List (Nat × α)
  | _, [] => []
  | i, a :: r => (i, a) :: numbered (i + 1) r

def list (d : Decoder α) : Decoder (List α)
  | ctx, .arr items => Checked.all (fun (i, j) => (.index i, d ctx j)) (numbered 0 items)
  | _, _ => .issue .notList

/-- A mapping from texts, in order. -/
def mapping (d : Decoder α) : Decoder (List (String × α))
  | ctx, .obj entries =>
    Checked.all (fun (k, j) => (.key k, (d ctx j).map fun a => (k, a))) entries
  | _, _ => .issue .notMapping

/-- A mapping to anything. -/
def anyMapping : Decoder (List (String × Json))
  | _, .obj entries => .valid entries
  | _, _ => .issue .notMapping

end TagLedger.Schema
