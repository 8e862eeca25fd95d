import TagLedger.Schema.Issue
import TagLedger.Json.Basic
import TagLedger.Text.Numeral

/-!
# Reading scalars leniently

An integer may also be written as a truth value, a number without a fraction or a text; a number as
a truth value or a text; a truth value as zero, one or one of a few words. A text is only a text.
-/

namespace TagLedger.Schema

/-- What reading depends on besides the document. -/
structure Context where
  /-- The time that missing timestamps get. -/
  now : Int
  /-- Whether a value that is no record is reported for having no fields. -/
  fieldsOnly : Bool

abbrev Decoder (α : Type) := Context → Json → Checked α

/-- The white space that numerals may have around them. -/
def strip (s : List Char) : List Char :=
  Text.dropEndWhile Text.isSpace (s.dropWhile Text.isSpace)

/-! ## Texts and truth values -/

def text : Decoder String
  | _, .str s => .valid s
  | _, _ => .issue .notText

def asciiLower (s : String) : String :=
  String.ofList (s.toList.map Char.toLower)

def truthWords : List (String × Bool) :=
  [("0", false), ("off", false), ("f", false), ("false", false), ("n", false), ("no", false),
   ("1", true), ("on", true), ("t", true), ("true", true), ("y", true), ("yes", true)]

def truthOfInt (n : Int) : Checked Bool :=
  if n = 0 then .valid false else if n = 1 then .valid true else .issue .badTruth

/-- Integers of 64 bits. -/
def isWord64 (n : Int) : Bool := -9223372036854775808 ≤ n && n ≤ 9223372036854775807

def truth : Decoder Bool
  | _, .bool b => .valid b
  | _, .str s =>
    match Json.find? truthWords (asciiLower s) with
    | some b => .valid b
    | none => .issue .badTruth
  | _, .int n => if isWord64 n then truthOfInt n else .issue .notTruth
  | _, .float x =>
    match x.toInt? with
    | some n => if isWord64 n then truthOfInt n else .issue .notTruth
    | none => .issue .notTruth
  | _, _ => .issue .notTruth

/-! ## Integers -/

/-- Single low lines between digits are dropped; other low lines stay and spoil the numeral. -/
def joinGroups : List Char → List Char
  | c :: '_' :: d :: r =>
    if Text.isAsciiDigit c && Text.isAsciiDigit d then c :: joinGroups (d :: r)
    else c :: '_' :: joinGroups (d :: r)
  | c :: r => c :: joinGroups r
  | [] => []

/-- Without a fraction of zeros only. -/
def dropZeroFraction (s : List Char) : List Char :=
  let whole := s.takeWhile (· != '.')
  if (s.drop (whole.length + 1)).all (· == '0') then whole else s

def integerOfText (s : String) : Checked Int :=
  let body := strip s.toList
  if Text.digitLimit < (String.ofList body).utf8ByteSize then .issue .hugeInteger
  else
    let (negative, ds) := match body with
      | '-' :: r => (true, r)
      | '+' :: r => (false, r)
      | r => (false, r)
    let ds := joinGroups (dropZeroFraction ds)
    if !ds.isEmpty && ds.all Text.isAsciiDigit then
      let n : Int := Text.digitsValue ds
      .valid (if negative then -n else n)
    else .issue .badInteger

def integerOfFloat (x : Binary64) : Checked Int :=
  match x with
  | .finite _ =>
    match x.toInt? with
    | none => .issue .fractionalInteger
    | some n => if -9223372036854775808 < n && n < 9223372036854775808 then .valid n
      else .issue .hugeInteger
  | _ => .issue .notFinite

def integer : Decoder Int
  | _, .int n => .valid n
  | _, .bool b => .valid (if b then 1 else 0)
  | _, .float x => integerOfFloat x
  | _, .str s => integerOfText s
  | _, _ => .issue .notInteger

/-! ## Numbers -/

/-- The digits of a number with a point or exponent: whole digits, digits after the point and
exponent. -/
def decimalParts? (s : List Char) : Option (List Char × List Char × Int) :=
  let whole := s.takeWhile Text.isAsciiDigit
  let r := s.drop whole.length
  let (frac, r) := match r with
    | '.' :: r => (r.takeWhile Text.isAsciiDigit, r.dropWhile Text.isAsciiDigit)
    | r => ([], r)
  if whole.isEmpty && frac.isEmpty then none
  else
    match r with
    | [] => some (whole, frac, 0)
    | c :: r =>
      if c == 'e' || c == 'E' then
        let (negative, ds) := match r with
          | '-' :: r => (true, r)
          | '+' :: r => (false, r)
          | r => (false, r)
        if !ds.isEmpty && ds.all Text.isAsciiDigit then
          let n : Int := Text.digitsValue ds
          some (whole, frac, if negative then -n else n)
        else none
      else none

/-- The number that a text writes: an optional sign, then a decimal or a word for a number that is
not finite. -/
def numberOfChars? (s : List Char) : Option Binary64 :=
  let (negative, body) := match s with
    | '-' :: r => (true, r)
    | '+' :: r => (false, r)
    | r => (false, r)
  let word := asciiLower (String.ofList body)
  if word == "nan" then some .nan
  else if word == "inf" || word == "infinity" then some (.infinite negative)
  else
    (decimalParts? body).map fun (whole, frac, e) =>
      Binary64.ofDecimal negative (Text.digitsValue (whole ++ frac)) (e - frac.length)

def numberOfText (s : String) : Checked Binary64 :=
  let body := strip s.toList
  match numberOfChars? body with
  | some x => .valid x
  | none =>
    match numberOfChars? (joinGroups body) with
    | some x => .valid x
    | none => .issue .badNumber

def number : Decoder Binary64
  | _, .float x => .valid x
  | _, .int n =>
    match Binary64.ofInt n with
    | .finite x => .valid (.finite x)
    | _ => .issue .notNumber
  | _, .bool b => .valid (Binary64.ofNat (if b then 1 else 0))
  | _, .str s => numberOfText s
  | _, _ => .issue .notNumber

/-! ## Bounds and choices -/

/-- The value has to pass a test. -/
def Decoder.where {α : Type} (d : Decoder α) (ok : α → Bool) (kind : IssueKind) : Decoder α :=
  fun ctx j => (d ctx j).andThen fun a => if ok a then .valid a else .issue kind

/-- The value has to pass tests, of which the first that fails is reported. -/
def Decoder.whereAll {α : Type} (d : Decoder α) (tests : List ((α → Bool) × IssueKind)) :
    Decoder α :=
  tests.foldl (fun d t => d.where t.1 t.2) d

/-- One of a few texts. -/
def oneOf {α : Type} (allowed : List (String × α)) : Decoder α
  | _, .str s =>
    match Json.find? allowed s with
    | some a => .valid a
    | none => .issue (.notAllowed (allowed.map (·.1)))
  | _, _ => .issue (.notAllowed (allowed.map (·.1)))

end TagLedger.Schema
