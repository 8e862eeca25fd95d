import TagLedger.Template.Builtin
import TagLedger.Template.Range
import TagLedger.Transcript.Render
import TagLedger.Variable.Basic

/-!
# Templates with references

A template refers to a variable or to the chat by its name in double braces, with ranges after an at
sign if only a part is meant. Builtins are resolved first; then the text is cut once into literals
and references, and each reference is replaced by a text that is not looked at again. What refers to
nothing, and what has no usable range, becomes empty.

    fillReferences env (parts t) = the literals of t in order, with the text of each reference
-/

namespace TagLedger.Template

/-! ## References -/

structure Reference where
  name : List Char
  /-- What stands after the name, at sign included. -/
  ranges : List Char
  deriving DecidableEq

def isBrace (c : Char) : Bool := c == '\x7b' || c == '\x7d'

/-- Two closing braces in front. -/
def startsClosed : List Char → Bool
  | a :: b :: _ => a == '\x7d' && b == '\x7d'
  | _ => false

/-- A reference in double braces. -/
def referenceMark : Text.MarkReader Reference
  | a :: b :: r =>
    if a == '\x7b' && b == '\x7b' then
      let name := r.takeWhile fun c => !isBrace c && c != '@'
      let ranges := match r.drop name.length with
        | '@' :: q => '@' :: q.takeWhile fun c => !isBrace c
        | _ => []
      let rest := r.drop (name.length + ranges.length)
      if name.isEmpty || ranges == ['@'] || !startsClosed rest then none
      else some (⟨name, ranges⟩, name.length + ranges.length + 4)
    else none
  | _ => none

/-- A text as its literals and references. -/
def parts (s : List Char) : List (Text.Piece Reference) := Text.scan referenceMark s

/-! ## What references stand for -/

/-- Finds the value of a variable by its name. -/
abbrev Lookup := String → Option Value

/-- What a template is resolved against. -/
structure Environment where
  lastFloor : Int
  messages : List Message
  /-- The names that stand for the chat. -/
  aliases : List String
  floorFormat : String
  lookup : Lookup

/-- Why a template cannot be resolved. -/
inductive Fault where
  | numeralTooLong
  | format (fault : FloorFormat.Fault)
  deriving DecidableEq

def liftNumeral {α : Type} : Except Text.NumeralTooLong α → Except Fault α
  | .ok a => .ok a
  | .error _ => .error .numeralTooLong

/-- The contents that ranges pick from a value: the visible entries of a stack; for a slot the
visible history with the current content after it, or without ranges the current content alone. -/
def contents (v : Value) (ranges : List Range) : List String :=
  match v with
  | .stack s =>
    let all := s.visible.map (·.content)
    if ranges.isEmpty then all else selectItems all ranges
  | .slot s =>
    let current := if s.current = "" then [] else [s.current]
    if ranges.isEmpty then current
    else selectItems ((s.history.filter fun e => !e.hidden).map (·.content) ++ current) ranges

/-- The text of a reference to a variable. -/
def variableText (lookup : Lookup) (name : String) (spec : List Char) : Except Fault String :=
  match lookup name with
  | some v =>
    (liftNumeral (readRanges spec)).map fun ranges =>
      if !spec.isEmpty && ranges.isEmpty then "" else joinBlocks (contents v ranges)
  | none => .ok ""

/-- The blocks of floors, those without text left out. -/
def chatBlocks (format : String) (messages : List Message) :
    List Int → Except Fault (List String)
  | [] => .ok []
  | f :: r =>
    match messageAt? messages f with
    | none => chatBlocks format messages r
    | some m =>
      if m.text = "" then chatBlocks format messages r
      else
        match formatFloor format f m m.text with
        | .error e => .error (.format e)
        | .ok block => (chatBlocks format messages r).map (block :: ·)

/-- The text of a reference to the chat. -/
def chatText (format : String) (messages : List Message) (spec : List Char) :
    Except Fault String := do
  let ranges ← liftNumeral (readRanges spec)
  return joinBlocks (← chatBlocks format messages (selectFloors messages.length ranges))

/-- The text of a reference. -/
def Reference.text (env : Environment) (r : Reference) : Except Fault (List Char) :=
  let name := String.ofList (Text.trim r.name)
  (if env.aliases.contains name then chatText env.floorFormat env.messages r.ranges
    else variableText env.lookup name r.ranges).map String.toList

/-! ## Resolving -/

/-- Replaces the references of a text. -/
def resolveReferences (env : Environment) (s : List Char) : Except Fault (List Char) :=
  Text.fill (Reference.text env) (parts s)

/-- Resolves the builtins of a text, in at most so many rounds. -/
def resolveBuiltins (rounds : Int) (lastFloor : Int) (s : List Char) : Except Fault (List Char) :=
  liftNumeral (expand rounds.toNat lastFloor s)

/-- Resolves a whole template. -/
def resolve (env : Environment) (rounds : Int) (template : String) : Except Fault String := do
  let s ← resolveBuiltins rounds env.lastFloor template.toList
  return String.ofList (← resolveReferences env s)

end TagLedger.Template
