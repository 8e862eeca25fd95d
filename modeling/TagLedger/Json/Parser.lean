import TagLedger.Json.Basic
import TagLedger.Text.Numeral

/-!
# Reading document trees

The grammar is that of JSON with the three words `NaN`, `Infinity` and `-Infinity` added. A text
that is no document fails with the part of it that starts at the place of the fault, so the place is
`text.length - rest.length`. Of several values under one key the last counts, at the place of the
first.
-/

namespace TagLedger.Json

/-- Why a text is no document. -/
inductive ReadError where
  /-- The grammar is broken where `rest` starts. -/
  | malformed (rest : List Char)
  /-- An integer has too many digits. -/
  | numeralTooLong
  deriving DecidableEq

/-- A value and the text after it. -/
abbrev Read (α : Type) := Except ReadError (α × List Char)

def isGap (c : Char) : Bool := c == ' ' || c == '\t' || c == '\n' || c == '\r'

/-- Without the white space in front. -/
def skipGap (s : List Char) : List Char := s.dropWhile isGap

/-! ## Texts -/

/-- The value of four hexadecimal digits with something after them. -/
def readUnit? : List Char → Option (Nat × List Char)
  | a :: b :: c :: d :: r =>
    if r.isEmpty then none
    else
      match Text.hexDigit? a, Text.hexDigit? b, Text.hexDigit? c, Text.hexDigit? d with
      | some a, some b, some c, some d => some (((a * 16 + b) * 16 + c) * 16 + d, r)
      | _, _, _, _ => none
  | _ => none

def simpleEscape? (c : Char) : Option Char :=
  if c == '"' || c == '\\' || c == '/' then some c
  else if c == 'n' then some '\n'
  else if c == 't' then some '\t'
  else if c == 'r' then some '\r'
  else if c == 'b' then some (Char.ofNat 8)
  else if c == 'f' then some (Char.ofNat 12)
  else none

/-- One unit stands for its character, a surrogate on its own for U+FFFD. -/
def unitChar (n : Nat) : Char := if 0xD800 ≤ n && n ≤ 0xDFFF then Char.ofNat 0xFFFD else Char.ofNat n

/-- The characters up to the closing quote. `opening` is the text from the opening quote on; the
fuel bounds the characters read. -/
def readQuoted (opening : List Char) : Nat → List Char → List Char → Read String
  | 0, _, _ => .error (.malformed opening)
  | _, _, [] => .error (.malformed opening)
  | fuel + 1, done, c :: s =>
    if c == '"' then .ok (String.ofList done.reverse, s)
    else if c.toNat < 32 then .error (.malformed (c :: s))
    else if c == '\\' then
      match s with
      | [] => .error (.malformed opening)
      | 'u' :: r =>
        match readUnit? r with
        | none => .error (.malformed s)
        | some (n, r) =>
          if 0xD800 ≤ n && n ≤ 0xDBFF && 6 < r.length then
            match r with
            | '\\' :: 'u' :: r' =>
              match readUnit? r' with
              | none => .error (.malformed ('u' :: r'))
              | some (m, r'') =>
                if 0xDC00 ≤ m && m ≤ 0xDFFF then
                  let c := Char.ofNat (0x10000 + (n - 0xD800) * 0x400 + (m - 0xDC00))
                  readQuoted opening fuel (c :: done) r''
                else readQuoted opening fuel (unitChar n :: done) r
            | _ => readQuoted opening fuel (unitChar n :: done) r
          else readQuoted opening fuel (unitChar n :: done) r
      | e :: r =>
        match simpleEscape? e with
        | some c => readQuoted opening fuel (c :: done) r
        | none => .error (.malformed (c :: s))
    else readQuoted opening fuel (c :: done) s

/-- A text whose opening quote has just been passed. -/
def readText (s : List Char) : Read String := readQuoted ('"' :: s) (s.length + 1) [] s

/-! ## Numbers -/

/-- The digits in front and the rest. -/
def spanDigits (s : List Char) : List Char × List Char := s.span Text.isAsciiDigit

/-- A fraction: a point with at least one digit after it. -/
def readFraction (s : List Char) : List Char × List Char :=
  match s with
  | '.' :: r =>
    let (ds, r') := spanDigits r
    if ds.isEmpty then ([], s) else (ds, r')
  | _ => ([], s)

/-- An exponent: its mark, a sign or none, and at least one digit. -/
def readExponent (s : List Char) : Option Int × List Char :=
  let after (r : List Char) : Option Int × List Char :=
    let (negative, r) := match r with
      | '-' :: r => (true, r)
      | '+' :: r => (false, r)
      | r => (false, r)
    let (ds, r') := spanDigits r
    if ds.isEmpty then (none, s)
    else
      let n : Int := Text.digitsValue ds
      (some (if negative then -n else n), r')
  match s with
  | 'e' :: r => after r
  | 'E' :: r => after r
  | _ => (none, s)

/-- The integer digits: a zero alone, or digits that do not start with a zero. -/
def readWhole? (s : List Char) : Option (List Char × List Char) :=
  match s with
  | '0' :: r => some (['0'], r)
  | _ =>
    let (ds, r) := spanDigits s
    if ds.isEmpty then none else some (ds, r)

/-- The number without its sign at the start of `s`, if one stands there. -/
def readMagnitude? (negative : Bool) (s : List Char) : Option (Read Json) :=
  match readWhole? s with
  | none => none
  | some (ds, r) =>
    let (frac, r) := readFraction r
    let (exponent, r) := readExponent r
    if frac.isEmpty && exponent.isNone then
      some (match Text.readDigits ds with
        | .ok n => .ok (.int (if negative then -(n : Int) else n), r)
        | .error _ => .error .numeralTooLong)
    else
      let e := exponent.getD 0 - frac.length
      some (.ok (.float (Binary64.ofDecimal negative (Text.digitsValue (ds ++ frac)) e), r))

/-- The number at the start of `s`, if one stands there. -/
def readNumber? (s : List Char) : Option (Read Json) :=
  match s with
  | '-' :: r => readMagnitude? true r
  | r => readMagnitude? false r

/-! ## Values -/

/-- What follows a fixed word at the start of `s`. -/
def after? : List Char → List Char → Option (List Char)
  | [], s => some s
  | c :: w, d :: s => if c == d then after? w s else none
  | _, [] => none

def words : List (String × Json) :=
  [("null", .null), ("true", .bool true), ("false", .bool false), ("NaN", .float .nan),
   ("Infinity", .float (.infinite false)), ("-Infinity", .float (.infinite true))]

/-- A word or a number. -/
def readPlain (s : List Char) : Read Json :=
  match words.findSome? fun (w, j) => (after? w.toList s).map fun r => (j, r) with
  | some (j, r) => .ok (j, r)
  | none => (readNumber? s).getD (.error (.malformed s))

mutual

/-- The value at the start of `s`; the fuel bounds the depth and the number of items. -/
def readValue : Nat → List Char → Read Json
  | 0, s => .error (.malformed s)
  | fuel + 1, s =>
    match s with
    | '"' :: r => (readText r).map fun (t, r) => (.str t, r)
    | '[' :: r =>
      match skipGap r with
      | ']' :: r => .ok (.arr [], r)
      | r => (readItems fuel r).map fun (items, r) => (.arr items, r)
    | '\x7b' :: r =>
      match skipGap r with
      | '\x7d' :: r => .ok (.obj [], r)
      | r => (readFields fuel [] r).map fun (fields, r) => (.obj fields, r)
    | s => readPlain s

/-- The items of an array up to its bracket. -/
def readItems : Nat → List Char → Read (List Json)
  | 0, s => .error (.malformed s)
  | fuel + 1, s =>
    match readValue fuel s with
    | .error e => .error e
    | .ok (j, r) =>
      match skipGap r with
      | ']' :: r => .ok ([j], r)
      | ',' :: r => (readItems fuel (skipGap r)).map fun (items, r) => (j :: items, r)
      | r => .error (.malformed r)

/-- The fields of an object up to its brace, added to those read before. -/
def readFields : Nat → List (String × Json) → List Char → Read (List (String × Json))
  | 0, _, s => .error (.malformed s)
  | fuel + 1, done, s =>
    match s with
    | '"' :: r =>
      match readText r with
      | .error e => .error e
      | .ok (k, r) =>
        match skipGap r with
        | ':' :: r =>
          match readValue fuel (skipGap r) with
          | .error e => .error e
          | .ok (j, r) =>
            let done := insert done k j
            match skipGap r with
            | '\x7d' :: r => .ok (done, r)
            | ',' :: r => readFields fuel done (skipGap r)
            | r => .error (.malformed r)
        | r => .error (.malformed r)
    | s => .error (.malformed s)

end

/-- The document that the whole text writes. -/
def parse (text : List Char) : Except ReadError Json :=
  match text with
  | c :: _ => if c.toNat == 0xFEFF then .error (.malformed text) else go
  | [] => go
where
  go : Except ReadError Json :=
    match readValue (text.length + 1) (skipGap text) with
    | .error e => .error e
    | .ok (j, r) =>
      match skipGap r with
      | [] => .ok j
      | r => .error (.malformed r)

def parseText (text : String) : Except ReadError Json := parse text.toList

end TagLedger.Json
