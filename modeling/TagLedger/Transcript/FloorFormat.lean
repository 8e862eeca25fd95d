import TagLedger.Number.Fixed
import TagLedger.Text.Quoted
import TagLedger.Text.Numeral

/-!
# The format of a floor

A template with fields in braces: the number of the floor, its sender and its text. A field may ask
for one character or a part of the number, for a quoted form, and for a layout: fill, alignment,
sign, width, grouping, precision and a type letter. A doubled brace stands for itself.

    render f floor sender text = .ok f           for an `f` without braces
-/

namespace TagLedger.FloorFormat

/-! ## Templates -/

/-- Why a floor cannot be written. -/
inductive Fault where
  /-- The template is broken, or asks for a layout that does not suit the value. -/
  | badTemplate
  | unknownField (name : String)
  /-- A position where a name is needed, or a character that is not there. -/
  | noPosition
  | noAttribute
  /-- Part of a number, or a character by something else than a position. -/
  | noPart
  /-- The number is too large for the layout. -/
  | tooLarge
  deriving DecidableEq

/-- A field: its name with parts, a conversion, and a layout that may hold fields itself. -/
structure Field where
  name : List Char
  conversion : Option Char
  layout : List Char
  nested : Bool

inductive Piece where
  | text (c : Char)
  | field (f : Field)
  /-- The template is broken here. -/
  | broken

/-- The name of a field and what ended it, brackets being passed over. -/
def splitName : Nat → Bool → List Char → List Char → Option (List Char × Char × List Char)
  | 0, _, _, _ => none
  | _, _, _, [] => none
  | fuel + 1, inBrackets, done, c :: r =>
    if inBrackets then splitName fuel (c != ']') (c :: done) r
    else if c == '\x7b' then none
    else if c == '\x7d' || c == ':' || c == '!' then some (done.reverse, c, r)
    else splitName fuel (c == '[') (c :: done) r

/-- A layout up to its closing brace, inner braces in pairs; whether there were any. -/
def splitLayout : Nat → Bool → List Char → List Char → Option (List Char × Bool × List Char)
  | _, _, _, [] => none
  | depth, nested, done, c :: r =>
    if c == '\x7b' then splitLayout (depth + 1) true (c :: done) r
    else if c == '\x7d' then
      match depth with
      | 0 => some (done.reverse, nested, r)
      | depth + 1 => splitLayout depth nested (c :: done) r
    else splitLayout depth nested (c :: done) r

/-- A field from after its opening brace. -/
def readField (s : List Char) : Option (Field × List Char) :=
  let withLayout (name : List Char) (conversion : Option Char) (r : List Char) :=
    (splitLayout 0 false [] r).map fun (l, nested, r) => (Field.mk name conversion l nested, r)
  match splitName (s.length + 1) false [] s with
  | none => none
  | some (name, stop, r) =>
    if stop == '\x7d' then some (⟨name, none, [], false⟩, r)
    else if stop == ':' then withLayout name none r
    else
      match r with
      | [] => none
      | c :: [] => withLayout name (some c) []
      | c :: d :: r =>
        if d == '\x7d' then some (⟨name, some c, [], false⟩, r)
        else if d == ':' then withLayout name (some c) r
        else none

/-- The pieces of a template, ending with the first break in it. -/
def pieces : Nat → List Char → List Piece
  | 0, _ => []
  | _, [] => []
  | fuel + 1, c :: r =>
    if c == '\x7b' || c == '\x7d' then
      match r with
      | d :: r' =>
        if d == c then .text c :: pieces fuel r'
        else if c == '\x7d' then [.broken]
        else
          match readField r with
          | some (f, rest) => .field f :: pieces fuel rest
          | none => [.broken]
      | [] => [.broken]
    else .text c :: pieces fuel r

/-! ## Values -/

inductive Datum where
  | number (n : Int)
  | text (s : List Char)

/-- The fields of a floor. -/
structure Floor where
  number : Int
  sender : String
  text : String

def Floor.get? (f : Floor) (name : List Char) : Option Datum :=
  let name := String.ofList name
  if name == "floor" then some (.number f.number)
  else if name == "sender" then some (.text f.sender.toList)
  else if name == "text" then some (.text f.text.toList)
  else none

/-- Digits only, and at least one. -/
def isPosition (s : List Char) : Bool := !s.isEmpty && s.all Text.isDigit

/-- Positions beyond this are refused. -/
def positionLimit : Nat := 9223372036854775807

def position (s : List Char) : Except Fault Nat :=
  let n := Text.digitsValue s
  if n ≤ positionLimit then .ok n else .error .badTemplate

/-- An attribute of a value. -/
def Datum.attribute (d : Datum) (name : List Char) : Except Fault Datum :=
  match d with
  | .number n =>
    let name := String.ofList name
    if name == "real" || name == "numerator" then .ok (.number n)
    else if name == "imag" then .ok (.number 0)
    else if name == "denominator" then .ok (.number 1)
    else .error .noAttribute
  | .text _ => .error .noAttribute

/-- A part of a value in brackets. -/
def Datum.part (d : Datum) (key : List Char) : Except Fault Datum := do
  let at? ← if isPosition key then (position key).map some else .ok none
  match d, at? with
  | .text s, some i =>
    match s[i]? with
    | some c => .ok (.text [c])
    | none => .error .noPosition
  | _, _ => .error .noPart

/-- Follows the parts after the name of a field. -/
def follow : Nat → Datum → List Char → Except Fault Datum
  | _, d, [] => .ok d
  | 0, _, _ => .error .badTemplate
  | fuel + 1, d, c :: r =>
    if c == '.' then
      let name := r.takeWhile fun x => x != '.' && x != '['
      if name.isEmpty then .error .badTemplate
      else (d.attribute name).bind fun d => follow fuel d (r.drop name.length)
    else if c == '[' then
      let key := r.takeWhile (· != ']')
      if key.length = r.length || key.isEmpty then .error .badTemplate
      else (d.part key).bind fun d => follow fuel d (r.drop (key.length + 1))
    else .error .badTemplate

/-- The value that a field names. -/
def lookup (f : Floor) (name : List Char) : Except Fault Datum :=
  let first := name.takeWhile fun x => x != '.' && x != '['
  let rest := name.drop first.length
  if first.isEmpty then .error .noPosition
  else if isPosition first then (position first).bind fun _ => .error .noPosition
  else
    match f.get? first with
    | some d => follow (rest.length + 1) d rest
    | none => .error (.unknownField (String.ofList first))

def Datum.plain : Datum → List Char
  | .number n => Text.intDigits n
  | .text s => s

/-- A value as text: as it is, quoted, or quoted in ASCII. -/
def Datum.convert (d : Datum) (c : Char) : Except Fault Datum :=
  let quoted (q : String → String) : Datum :=
    match d with
    | .number n => .text (Text.intDigits n)
    | .text s => .text (q (String.ofList s)).toList
  if c == 's' then .ok (.text d.plain)
  else if c == 'r' then .ok (quoted Text.quote)
  else if c == 'a' then .ok (quoted Text.quoteAscii)
  else .error .badTemplate

/-! ## Layouts -/

/-- A layout that was read. -/
structure Layout where
  fill : Char
  fillGiven : Bool
  align : Option Char
  sign : Option Char
  coerceZero : Bool
  alternate : Bool
  width : Nat
  grouping : Option Char
  precision : Option Nat
  type : Option Char

def isAlign (c : Char) : Bool := c == '<' || c == '>' || c == '=' || c == '^'

/-- Goes over `c` if it stands in front. -/
def skip (c : Char) (s : List Char) : Bool × List Char :=
  match s with
  | d :: r => if d == c then (true, r) else (false, s)
  | [] => (false, s)

/-- A number in front, if there is one. -/
def leadingNumber (s : List Char) : Except Fault (Option Nat × List Char) :=
  let ds := s.takeWhile Text.isDigit
  if ds.isEmpty then .ok (none, s)
  else (position ds).map fun n => (some n, s.drop ds.length)

/-- Type letters that a separator suits; the low line also suits the other bases. -/
def groupingSuits (sep : Char) (type : Option Char) : Bool :=
  match type with
  | none => true
  | some t =>
    "deEfFgG%".toList.contains t || (sep == '_' && "boxX".toList.contains t)

/-- Reads a layout; `rightward` says that values stand at the right by default. -/
def readLayout (rightward : Bool) (s : List Char) : Except Fault Layout := do
  let (fill, fillGiven, align, s) := match s with
    | c :: d :: r =>
      if isAlign d then (c, true, some d, r)
      else if isAlign c then (' ', false, some c, d :: r)
      else (' ', false, none, s)
    | [c] => if isAlign c then (' ', false, some c, []) else (' ', false, none, s)
    | [] => (' ', false, none, [])
  let (sign, s) := match s with
    | c :: r => if c == ' ' || c == '+' || c == '-' then (some c, r) else (none, s)
    | [] => (none, s)
  let (coerceZero, s) := skip 'z' s
  let (alternate, s) := skip '#' s
  let (zero, s) := if fillGiven then (false, s) else skip '0' s
  let fill := if zero then '0' else fill
  let align := if zero && align.isNone && rightward then some '=' else align
  let (width, s) ← leadingNumber s
  let (comma, s) := skip ',' s
  let (low, s) := skip '_' s
  if comma && low then throw .badTemplate
  let (again, s') := skip ',' s
  if again && low then throw .badTemplate
  let s := if again then ',' :: s' else s
  let grouping := if comma then some ',' else if low then some '_' else none
  let (point, s) := skip '.' s
  let (precision, s) ← if point then leadingNumber s else pure (none, s)
  if point && precision.isNone then throw .badTemplate
  let type ← match s with
    | [] => pure none
    | [c] => pure (some c)
    | _ => throw .badTemplate
  match grouping with
  | some g => if !groupingSuits g type then throw .badTemplate
  | none => pure ()
  return ⟨fill, fillGiven || zero, align, sign, coerceZero, alternate, width.getD 0, grouping,
    precision, type⟩

/-- Pads a text that follows a sign or base mark. -/
def pad (l : Layout) (defaultAlign : Char) (mark body : List Char) : List Char :=
  let missing := l.width - (mark.length + body.length)
  let fill (n : Nat) := List.replicate n l.fill
  let align := l.align.getD defaultAlign
  if align == '=' then mark ++ fill missing ++ body
  else if align == '<' then mark ++ body ++ fill missing
  else if align == '>' then fill missing ++ mark ++ body
  else fill (missing / 2) ++ mark ++ body ++ fill (missing - missing / 2)

/-- The layout of a text. -/
def layText (l : Layout) (s : List Char) : Except Fault (List Char) :=
  if l.type != none && l.type != some 's' then .error .badTemplate
  else if l.sign.isSome || l.coerceZero || l.alternate || l.align = some '=' ||
      l.grouping.isSome then .error .badTemplate
  else
    .ok (pad l '<' [] (match l.precision with
      | some p => s.take p
      | none => s))

/-- Digits, given from the last to the first, with a separator after every group, and zeros in front
until `least` characters are reached. -/
def groupFrom (sep : Char) (size : Nat) : Nat → Nat → Int → List Char → List Char
  | 0, _, _, ds => ds
  | fuel + 1, inGroup, least, ds =>
    match ds with
    | [] =>
      if least ≤ 0 then []
      else if inGroup = size then
        if least = 1 then sep :: '0' :: [] else sep :: groupFrom sep size fuel 0 (least - 1) []
      else '0' :: groupFrom sep size fuel (inGroup + 1) (least - 1) []
    | d :: r =>
      if inGroup = size then sep :: groupFrom sep size fuel 0 (least - 1) ds
      else d :: groupFrom sep size fuel (inGroup + 1) (least - 1) r

/-- Whole digits with separators, at least `least` characters wide. -/
def grouped (sep : Char) (size : Nat) (least : Nat) (ds : List Char) : List Char :=
  (groupFrom sep size (2 * (ds.length + least) + 2) 0 least ds.reverse).reverse

/-- The letter that asks for a floating form. -/
def isFloating (c : Char) : Bool := "eEfFgG%".toList.contains c

/-- The whole digits of a number and what follows them, in the form that the type letter asks for. -/
def digitsFor (l : Layout) (n : Nat) : Except Fault (List Char × List Char) :=
  let t := l.type.getD 'd'
  if t == 'd' || t == 'n' then .ok (Text.natDigits n, [])
  else if t == 'b' then .ok (Nat.toDigits 2 n, [])
  else if t == 'o' then .ok (Nat.toDigits 8 n, [])
  else if t == 'x' then .ok (Nat.toDigits 16 n, [])
  else if t == 'X' then .ok ((Nat.toDigits 16 n).map Char.toUpper, [])
  else if isFloating t then
    match Binary64.ofNat n with
    | .finite x =>
      let (a, b) := x.ratio
      let places := l.precision.getD 6
      let body :=
        if t == 'f' || t == 'F' then Number.fixed a b places l.alternate
        else if t == '%' then Number.fixed (a * 100) b places l.alternate ++ ['%']
        else if t == 'e' || t == 'E' then Number.exponential a b places t l.alternate
        else Number.general a b places (if t == 'g' then 'e' else 'E') l.alternate
      let whole := body.takeWhile Text.isAsciiDigit
      .ok (whole, body.drop whole.length)
    | _ => .error .tooLarge
  else .error .badTemplate

/-- The mark of a base in the alternate form. -/
def baseMark (l : Layout) : List Char :=
  if l.alternate then
    match l.type with
    | some 'b' => ['0', 'b']
    | some 'o' => ['0', 'o']
    | some 'x' => ['0', 'x']
    | some 'X' => ['0', 'X']
    | _ => []
  else []

/-- The layout of a number. -/
def layNumber (l : Layout) (n : Int) : Except Fault (List Char) :=
  let t := l.type.getD 'd'
  let whole := !isFloating t
  if whole && (l.precision.isSome || l.coerceZero) then .error .badTemplate
  else if t == 'c' then
    if l.sign.isSome || l.alternate then .error .badTemplate
    else if 0 ≤ n && n < 0x110000 then .ok (pad l '>' [] [Char.ofNat n.toNat])
    else .error .tooLarge
  else do
    let (digits, tail) ← digitsFor l n.natAbs
    let sign : List Char :=
      if n < 0 then ['-'] else match l.sign with
        | some '+' => ['+']
        | some ' ' => [' ']
        | _ => []
    let mark := sign ++ baseMark l
    let least := if l.fill == '0' && l.align == some '=' then
        l.width - mark.length - tail.length else 0
    let digits := match l.grouping with
      | some sep =>
        grouped sep (if "boxX".toList.contains t then 4 else 3) least digits
      | none => digits
    return pad l '>' mark (digits ++ tail)

def Datum.lay (d : Datum) (layout : List Char) : Except Fault (List Char) :=
  if layout.isEmpty then .ok d.plain
  else
    match d with
    | .text s => (readLayout false layout).bind fun l => layText l s
    | .number n => (readLayout true layout).bind fun l => layNumber l n

/-! ## Rendering -/

/-- Writes a template, whose layouts may hold fields down to `depth`. -/
def renderAt (f : Floor) : Nat → List Char → Except Fault (List Char)
  | 0, _ => .error .badTemplate
  | depth + 1, template =>
    let rec go : List Piece → Except Fault (List Char)
      | [] => .ok []
      | .text c :: r => (go r).map (c :: ·)
      | .broken :: _ => .error .badTemplate
      | .field x :: r => do
        let d ← lookup f x.name
        let d ← match x.conversion with
          | some c => d.convert c
          | none => .ok d
        let layout ← if x.nested then renderAt f depth x.layout else .ok x.layout
        let here ← d.lay layout
        return here ++ (← go r)
    go (pieces (template.length + 1) template)

/-- Writes a floor in a format. -/
def render (format : String) (f : Floor) : Except Fault String :=
  (renderAt f 2 format.toList).map String.ofList

end TagLedger.FloorFormat
