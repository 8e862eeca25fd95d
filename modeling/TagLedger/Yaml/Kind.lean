import TagLedger.Schema.Scalar

/-!
# What plain scalars mean

A plain scalar is a word for nothing or a truth value, a number, a date, one of two signs, or else a
text. Low lines within numbers do not count. Numbers may be written in other bases, and in parts of
which each counts sixty times the next.

    Kind.ofPlain s.toList = .text         lets a text be written plainly
-/

namespace TagLedger.Yaml

inductive Kind where
  | nothing
  | truth
  | integer
  | number
  | date
  /-- The sign in front of entries that come from another mapping. -/
  | merge
  /-- The equals sign. -/
  | equals
  | text
  deriving DecidableEq

/-! ## Shapes -/

def isDigitOrLine (c : Char) : Bool := Text.isAsciiDigit c || c == '_'

/-- Without a sign in front. -/
def unsigned : List Char → List Char
  | '-' :: r => r
  | '+' :: r => r
  | s => s

/-- A row of at least one character of a class. -/
def isRow (p : Char → Bool) (s : List Char) : Bool := !s.isEmpty && s.all p

/-- What is left after parts of a number, each a colon and a number below sixty. -/
def afterParts : List Char → List Char
  | ':' :: a :: b :: r =>
    if Text.isAsciiDigit b then
      if '0' ≤ a && a ≤ '5' then afterParts r else ':' :: a :: b :: r
    else if Text.isAsciiDigit a then afterParts (b :: r)
    else ':' :: a :: b :: r
  | [':', a] => if Text.isAsciiDigit a then [] else [':', a]
  | s => s

def isInteger (s : List Char) : Bool :=
  match unsigned s with
  | '0' :: 'b' :: r => isRow (fun c => c == '0' || c == '1' || c == '_') r
  | '0' :: 'x' :: r => isRow (fun c => (Text.hexDigit? c).isSome || c == '_') r
  | '0' :: r => r.all fun c => ('0' ≤ c && c ≤ '7') || c == '_'
  | c :: r => Text.isAsciiDigit c && (afterParts (r.dropWhile isDigitOrLine)).isEmpty
  | [] => false

/-- Nothing, or an exponent with its sign. -/
def isExponent : List Char → Bool
  | [] => true
  | e :: sign :: ds => (e == 'e' || e == 'E') && (sign == '-' || sign == '+') &&
    isRow Text.isAsciiDigit ds
  | _ => false

def infinities : List String := [".inf", ".Inf", ".INF"]

def nans : List String := [".nan", ".NaN", ".NAN"]

def isNumber (s : List Char) : Bool :=
  infinities.contains (String.ofList (unsigned s)) || nans.contains (String.ofList s) ||
  match s with
  | '.' :: c :: r => Text.isAsciiDigit c && isExponent (r.dropWhile isDigitOrLine)
  | s =>
    match unsigned s with
    | c :: r =>
      let rest := r.dropWhile isDigitOrLine
      Text.isAsciiDigit c &&
      match rest with
      | '.' :: r => isExponent (r.dropWhile isDigitOrLine)
      | ':' :: _ =>
        match afterParts rest with
        | '.' :: r => r.all isDigitOrLine
        | _ => false
      | _ => false
    | [] => false

/-! ## Dates -/

/-- A row of at least `least` and at most `most` digits, and what is left. -/
def digitRow (least most : Nat) (s : List Char) : Option (Nat × List Char) :=
  let ds := (s.takeWhile Text.isAsciiDigit).take most
  if ds.length < least then none else some (Text.digitsValue ds, s.drop ds.length)

def after? (c : Char) : List Char → Option (List Char)
  | x :: r => if x == c then some r else none
  | [] => none

structure Date where
  year : Nat
  month : Nat
  day : Nat
  /-- Hours, minutes and seconds. -/
  time : Nat × Nat × Nat
  /-- How far the zone is from the common time, in minutes. -/
  zone : Nat

/-- The zone at the end of a date. -/
def zone? (s : List Char) : Option Nat :=
  match s.dropWhile (fun c => c == ' ' || c == '\t') with
  | [] => if s.isEmpty then some 0 else none
  | ['Z'] => some 0
  | c :: r =>
    if c == '-' || c == '+' then do
      let (h, r) ← digitRow 1 2 r
      match r with
      | [] => return 60 * h
      | r =>
        let (m, r) ← digitRow 2 2 (← after? ':' r)
        if r.isEmpty then return 60 * h + m else none
    else none

/-- A day with two digits for month and day, or a day and a time. -/
def date? (s : List Char) : Option Date := do
  let (year, r) ← digitRow 4 4 s
  let (month, r) ← digitRow 1 2 (← after? '-' r)
  let (day, r) ← digitRow 1 2 (← after? '-' r)
  match r with
  | [] => if s.length = 10 then return ⟨year, month, day, (0, 0, 0), 0⟩ else none
  | c :: r =>
    let r ← if c == 'T' || c == 't' then some r
      else if c == ' ' || c == '\t' then some (r.dropWhile fun c => c == ' ' || c == '\t')
      else none
    let (h, r) ← digitRow 1 2 r
    let (m, r) ← digitRow 2 2 (← after? ':' r)
    let (sec, r) ← digitRow 2 2 (← after? ':' r)
    let r := match r with
      | '.' :: r => r.dropWhile Text.isAsciiDigit
      | r => r
    return ⟨year, month, day, (h, m, sec), ← zone? r⟩

def daysIn (year month : Nat) : Nat :=
  if month = 2 then
    if year % 4 = 0 && (year % 100 != 0 || year % 400 = 0) then 29 else 28
  else if [4, 6, 9, 11].contains month then 30
  else 31

/-- The date exists. -/
def Date.isReal (d : Date) : Bool :=
  let (h, m, s) := d.time
  0 < d.year && 0 < d.month && d.month ≤ 12 && 0 < d.day && d.day ≤ daysIn d.year d.month &&
    h < 24 && m < 60 && s < 60 && d.zone < 1440

/-! ## Kinds -/

/-- Words for truth values, in lower case. -/
def truthWords : List (String × Bool) :=
  [("yes", true), ("no", false), ("true", true), ("false", false), ("on", true), ("off", false)]

/-- A word as it may be written: all small, all large, or with a large letter in front. -/
def spellings (word : String) : List (List Char) :=
  let cs := word.toList
  [cs, cs.map Char.toUpper, (cs.take 1).map Char.toUpper ++ cs.drop 1]

def Kind.ofPlain (s : List Char) : Kind :=
  if s.isEmpty || s == ['~'] || (spellings "null").contains s then .nothing
  else if truthWords.any fun w => (spellings w.1).contains s then .truth
  else if isNumber s then .number
  else if isInteger s then .integer
  else if s == ['<', '<'] then .merge
  else if (date? s).isSome then .date
  else if s == ['='] then .equals
  else .text

/-- The kinds that tags name. -/
def Kind.tags : List (String × Kind) :=
  [("tag:yaml.org,2002:null", .nothing), ("tag:yaml.org,2002:bool", .truth),
   ("tag:yaml.org,2002:int", .integer), ("tag:yaml.org,2002:float", .number),
   ("tag:yaml.org,2002:timestamp", .date), ("tag:yaml.org,2002:merge", .merge),
   ("tag:yaml.org,2002:value", .equals), ("tag:yaml.org,2002:str", .text)]

end TagLedger.Yaml
