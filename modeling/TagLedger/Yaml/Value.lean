import TagLedger.Number.Shortest
import TagLedger.Text.Lines
import TagLedger.Yaml.Kind
import TagLedger.Yaml.Node

/-!
# Values of settings

A tree of settings means a document tree: mappings are objects in the order of their keys, and keys
that are no texts are written as texts. Entries taken over from other mappings come first and give
way to the mapping's own. Dates have no counterpart among documents and stand as empty lists.

    parse (print fs) = .ok (.obj fs)        for settings, whose keys are short words
-/

namespace TagLedger.Yaml

/-! ## Scalars -/

/-- A number in parts, each counting sixty times the next. -/
def inParts {α : Type} (add : α → α → α) (scale : Nat → α → α) (zero : α) (parts : List α) : α :=
  (parts.reverse.foldl (fun (sum, base) p => (add sum (scale base p), base * 60)) (zero, 1)).1

def splitParts (s : List Char) : List (List Char) :=
  s.foldr (fun c parts => if c == ':' then [] :: parts
    else (c :: parts.headD []) :: parts.tail) [[]]

def wholeValue (s : List Char) : Except Fault Int :=
  match Text.readLoose? (String.ofList s) with
  | some (.ok n) => .ok n
  | _ => .error .badValue

def baseValue (base : Nat) (ds : List Char) : Except Fault Int :=
  if ds.isEmpty then .error .badValue
  else
    let value := ds.foldl (fun n c => n.bind fun n =>
      match Text.hexDigit? c with
      | some d => if d < base then some (base * n + d) else none
      | none => none) (some 0)
    match value with
    | some n => .ok (Int.ofNat n)
    | none => .error .badValue

def integerValue (s : List Char) : Except Fault Int :=
  let s := s.filter (· != '_')
  let body := unsigned s
  let size : Except Fault Int := match body with
    | [] => .error .emptyNumber
    | ['0'] => .ok 0
    | '0' :: 'b' :: r => baseValue 2 r
    | '0' :: 'x' :: r => baseValue 16 r
    | '0' :: r => baseValue 8 r
    | body =>
      if body.contains ':' then
        ((splitParts body).mapM wholeValue).map
          (inParts (· + ·) (fun b n => (b : Int) * n) (0 : Int))
      else wholeValue body
  size.map fun n => if s.head? == some '-' then -n else n

def plainNumber (s : List Char) : Except Fault Binary64 :=
  match Schema.numberOfText (String.ofList s) with
  | .valid x => .ok x
  | .invalid _ => .error .badValue

def numberValue (s : List Char) : Except Fault Binary64 :=
  let s := (s.filter (· != '_')).map Char.toLower
  let body := unsigned s
  let negative := s.head? == some '-'
  if s.isEmpty then .error .emptyNumber
  else if body == ".inf".toList then .ok (.infinite negative)
  else if body == ".nan".toList then .ok .nan
  else
    let size := if body.contains ':' then
        ((splitParts body).mapM plainNumber).map
          (inParts Binary64.add (fun b x => Binary64.mul x (Binary64.ofNat b)) (Binary64.zero false))
      else plainNumber body
    size.map fun x => if negative then Binary64.mul (Binary64.ofInt (-1)) x else x

/-- The value of a scalar of a kind. -/
def scalarValue (kind : Kind) (s : List Char) : Except Fault Json :=
  match kind with
  | .nothing => .ok .null
  | .truth =>
    match truthWords.lookup (Schema.asciiLower (String.ofList s)) with
    | some b => .ok (.bool b)
    | none => .error .badWord
  | .integer => (integerValue s).map .int
  | .number => (numberValue s).map .float
  | .date =>
    match date? s with
    | some d => if d.isReal then .ok (.arr []) else .error .badValue
    | none => .error .badValue
  | .merge | .equals => .error .malformed
  | .text => .ok (.str (String.ofList s))

/-- The kind of a scalar. -/
def kindOf (p : Property) (plain : Bool) (s : List Char) : Except Fault Kind :=
  match p.tag with
  | none => .ok (if plain then .ofPlain s else .text)
  | some t =>
    if t = "!" then .ok (.ofPlain s)
    else
      match Kind.tags.lookup t with
      | some k => .ok k
      | none => .error .malformed

/-- The text of a key. -/
def keyText : Json → Except Fault String
  | .str s => .ok s
  | .null => .ok "null"
  | .bool b => .ok (if b then "true" else "false")
  | .int n => .ok (Text.intText n)
  | .float x => .ok (Number.text .document x)
  | _ => .error .malformed

/-! ## Collections -/

/-- The tag of a collection is left out, or the one for its shape. -/
def fits (p : Property) (shape : String) : Bool :=
  p.tag.all fun t => t = "!" || t = "tag:yaml.org,2002:" ++ shape

/-- The fields of a mapping, of which the last under a key counts. -/
def object (fields : List (String × Json)) : Json :=
  .obj (fields.foldl (fun fs f => Json.insert fs f.1 f.2) [])

/-- The fields of a mapping, those taken over from others in front. -/
def joined (parts : List (String × Json) × List (String × Json)) : List (String × Json) :=
  parts.1 ++ parts.2

/-- A scalar that stands for something as a key. -/
def keyKind : Node → Except Fault Kind
  | .scalar p plain s => kindOf p plain s.toList
  | _ => .ok .text

mutual

def value : Node → Except Fault Json
  | .again _ => .error .malformed
  | .scalar p plain s => (kindOf p plain s.toList).bind fun k => scalarValue k s.toList
  | .list p xs => if fits p "seq" then (values xs).map .arr else .error .malformed
  | .mapping p es =>
    if fits p "map" then (parts es).map fun ps => object (joined ps) else .error .malformed

def values : List Node → Except Fault (List Json)
  | [] => .ok []
  | x :: r => do
    let x ← value x
    let r ← values r
    return x :: r

/-- The fields taken over from other mappings, and a mapping's own. -/
def parts : List (Node × Node) → Except Fault (List (String × Json) × List (String × Json))
  | [] => .ok ([], [])
  | (k, v) :: r => do
    match ← keyKind k with
    | .merge =>
      let more ← merged v
      let (others, own) ← parts r
      return (more ++ others, own)
    | .equals =>
      let x ← value v
      let (others, own) ← parts r
      return (others, ("=", x) :: own)
    | .date =>
      let x ← value v
      let (others, own) ← parts r
      return (others, ("", x) :: own)
    | _ =>
      let key ← (value k).bind keyText
      let x ← value v
      let (others, own) ← parts r
      return (others, (key, x) :: own)

/-- The fields of a mapping, or of the mappings of a list, the first of which counts most. -/
def merged : Node → Except Fault (List (String × Json))
  | .mapping _ es => (parts es).map joined
  | .list _ xs => (mergedAll xs).map fun all => all.reverse.flatten
  | _ => .error .malformed

def mergedAll : List Node → Except Fault (List (List (String × Json)))
  | [] => .ok []
  | .mapping _ es :: r => do
    let ps ← parts es
    let r ← mergedAll r
    return joined ps :: r
  | _ => .error .malformed

end

/-- The value of a text of settings; a text without a document has the value nothing. -/
def parse (text : String) : Except Fault Json := do
  match ← Node.parse (Text.unixLines text.toList) with
  | none => return .null
  | some n => value n

end TagLedger.Yaml
