/-!
# Issues of a document

A document that does not fit its schema is answered with every issue it has: where the value stands
and what is wrong with it. `Checked` gathers the issues of independent parts in order.
-/

namespace TagLedger.Schema

/-- One step into a document. -/
inductive Step where
  | key (name : String)
  | index (i : Nat)
  deriving DecidableEq

/-- What is wrong with a value. -/
inductive IssueKind where
  | missing
  | notText
  | notInteger
  | badInteger
  | hugeInteger
  | fractionalInteger
  | notNumber
  | badNumber
  | notFinite
  | notTruth
  | badTruth
  | notList
  | notMapping
  /-- The value of a record, named here, is no object. -/
  | notRecord (name : String)
  /-- The value of a record has no fields at all. -/
  | noFields
  /-- None of the members of an enumeration. -/
  | notMember
  /-- None of the texts allowed. -/
  | notAllowed (allowed : List String)
  | notGreater (bound : Int)
  | less (bound : Int)
  | notLess (bound : Int)
  | greater (bound : Int)
  /-- A variant without a tag, or with an unknown one. -/
  | tagMissing
  | tagUnknown
  | notPath
  /-- The text of a document that is none. -/
  | malformed
  /-- A rule of the record itself, in words. -/
  | rule (message : String)
  deriving DecidableEq

/-- The name of a kind in answers. -/
def IssueKind.code : IssueKind → String
  | .missing => "missing"
  | .notText => "string_type"
  | .notInteger => "int_type"
  | .badInteger => "int_parsing"
  | .hugeInteger => "int_parsing_size"
  | .fractionalInteger => "int_from_float"
  | .notNumber => "float_type"
  | .badNumber => "float_parsing"
  | .notFinite => "finite_number"
  | .notTruth => "bool_type"
  | .badTruth => "bool_parsing"
  | .notList => "list_type"
  | .notMapping => "dict_type"
  | .notRecord _ => "model_type"
  | .noFields => "model_attributes_type"
  | .notMember => "enum"
  | .notAllowed _ => "literal_error"
  | .notGreater _ => "greater_than"
  | .less _ => "greater_than_equal"
  | .notLess _ => "less_than"
  | .greater _ => "less_than_equal"
  | .tagMissing => "union_tag_not_found"
  | .tagUnknown => "union_tag_invalid"
  | .notPath => "path_type"
  | .malformed => "json_invalid"
  | .rule _ => "value_error"

/-- Choices in words: `'a', 'b' or 'c'`. -/
def choices : List String → String
  | [] => ""
  | [a] => s!"'{a}'"
  | [a, b] => s!"'{a}' or '{b}'"
  | a :: r => s!"'{a}', " ++ choices r

/-- The explanation of a kind. -/
def IssueKind.message : IssueKind → String
  | .missing => "Field required"
  | .notText => "Input should be a valid string"
  | .notInteger => "Input should be a valid integer"
  | .badInteger => "Input should be a valid integer, unable to parse string as an integer"
  | .hugeInteger => "Unable to parse input string as an integer, exceeded maximum size"
  | .fractionalInteger => "Input should be a valid integer, got a number with a fractional part"
  | .notNumber => "Input should be a valid number"
  | .badNumber => "Input should be a valid number, unable to parse string as a number"
  | .notFinite => "Input should be a finite number"
  | .notTruth => "Input should be a valid boolean"
  | .badTruth => "Input should be a valid boolean, unable to interpret input"
  | .notList => "Input should be a valid list"
  | .notMapping => "Input should be a valid dictionary"
  | .notRecord name => "Input should be a valid dictionary or instance of " ++ name
  | .noFields => "Input should be a valid dictionary or object to extract fields from"
  | .notMember => "Input should be 'stack' or 'replace'"
  | .notAllowed allowed => "Input should be " ++ choices allowed
  | .notGreater bound => "Input should be greater than " ++ toString bound
  | .less bound => "Input should be greater than or equal to " ++ toString bound
  | .notLess bound => "Input should be less than " ++ toString bound
  | .greater bound => "Input should be less than or equal to " ++ toString bound
  | .tagMissing => "Unable to extract tag using discriminator 'type'"
  | .tagUnknown => "Input tag found using 'type' does not match any of the expected tags"
  | .notPath => "Input is not a valid path for <class 'pathlib.Path'>"
  | .malformed => "JSON decode error"
  | .rule message => "Value error, " ++ message

structure Issue where
  path : List Step
  kind : IssueKind
  deriving DecidableEq

/-- A value, or the issues that keep it from being one. -/
inductive Checked (α : Type) where
  | valid (value : α)
  | invalid (issues : List Issue)

namespace Checked

variable {α β : Type}

def issue (kind : IssueKind) : Checked α := .invalid [⟨[], kind⟩]

def map (f : α → β) : Checked α → Checked β
  | .valid a => .valid (f a)
  | .invalid is => .invalid is

/-- Applies one part to another; the issues of both are kept, those of the first part first. -/
def apply : Checked (α → β) → Checked α → Checked β
  | .valid f, .valid a => .valid (f a)
  | .valid _, .invalid is => .invalid is
  | .invalid is, .valid _ => .invalid is
  | .invalid is, .invalid js => .invalid (is ++ js)

instance : Functor Checked := ⟨map, fun a => map fun _ => a⟩

instance : Applicative Checked where
  pure := .valid
  seq f a := apply f (a ())

/-- Goes on with a valid value. -/
def andThen (x : Checked α) (f : α → Checked β) : Checked β :=
  match x with
  | .valid a => f a
  | .invalid is => .invalid is

/-- The issues of a part stand below a step. -/
def below (step : Step) : Checked α → Checked α
  | .valid a => .valid a
  | .invalid is => .invalid (is.map fun i => ⟨step :: i.path, i.kind⟩)

/-- All parts, each below the step that `f` pairs it with. -/
def all (f : β → Step × Checked α) : List β → Checked (List α)
  | [] => .valid []
  | b :: r => (map List.cons (below (f b).1 (f b).2)).apply (all f r)

def toExcept : Checked α → Except (List Issue) α
  | .valid a => .ok a
  | .invalid is => .error is

def toOption : Checked α → Option α
  | .valid a => some a
  | .invalid _ => none

@[simp] theorem map_valid (f : α → β) (a : α) : map f (.valid a) = .valid (f a) := rfl

@[simp] theorem apply_valid (f : α → β) (a : α) : apply (.valid f) (.valid a) = .valid (f a) := rfl

@[simp] theorem below_valid (s : Step) (a : α) : below s (.valid a) = .valid a := rfl

end Checked

end TagLedger.Schema
