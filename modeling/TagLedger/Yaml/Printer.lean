import TagLedger.Number.Shortest
import TagLedger.Yaml.Kind
import TagLedger.Yaml.Cursor
import TagLedger.Text.Quoted

/-!
# Writing settings

A document tree is written with one entry a line, collections within collections indented by two
columns, and the items of a list as deep as its key. A text is written plainly if it then reads as
itself, in single quotes if not, and in double quotes if it holds what only escapes can show. Lines
are folded between words beyond column 80.

    parse (print fs) = .ok (.obj fs)        for settings, whose keys are short words
-/

namespace TagLedger.Yaml

/-- Lines go on below once a word ends beyond this column. -/
def lineWidth : Nat := 80

/-! ## What a text is like -/

/-- A character that can stand in plain and single-quoted texts. -/
def isShowable (c : Char) : Bool :=
  let n := c.toNat
  c == '\n' || (0x20 ≤ n && n ≤ 0x7E) || n == 0x85 ||
    (0xA0 ≤ n && n ≤ 0xFFFD && c != orderMark) || (0x10000 ≤ n && n < 0x10FFFF)

/-- What has a meaning of its own at the start of a plain text. -/
def startsSpecially (s : List Char) : Bool :=
  match s with
  | [] => false
  | c :: r =>
    "#,[]\x7b\x7d&*!|>\"%@".toList.contains c || c == Text.apostrophe || c == Char.ofNat 96 ||
      ((c == '?' || c == ':' || c == '-') && endsOr isGap r) ||
      (s.take 3 == ['-', '-', '-'] || s.take 3 == ['.', '.', '.'])

/-- A colon before a gap or the end, or a number sign after a gap. -/
def hasMarks : List Char → Bool
  | c :: d :: r => (c == ':' && isGap d) || (isGap c && d == '#') || hasMarks (d :: r)
  | [c] => c == ':'
  | [] => false

/-- Two characters of classes stand side by side. -/
def hasPair (p q : Char → Bool) : List Char → Bool
  | c :: d :: r => (p c && q d) || hasPair p q (d :: r)
  | _ => false

def isSpaceChar (c : Char) : Bool := c == ' '

/-- The text can be written without quotes. -/
def canBePlain (s : List Char) : Bool :=
  Kind.ofPlain s == .text && s.all (fun c => isShowable c && !isBreak c) && !startsSpecially s &&
    !hasMarks s && s.head? != some ' ' && s.getLast? != some ' '

/-- The text can be written between single quotes. -/
def canBeSingle (s : List Char) : Bool :=
  s.all isShowable && !hasPair isBreak isSpaceChar s && !hasPair isSpaceChar isBreak s

/-! ## Folding -/

/-- What is written, and the column after it. -/
structure Page where
  /-- The written text, last character first. -/
  done : List Char
  column : Nat

namespace Page

def put (p : Page) (s : List Char) : Page := ⟨s.reverse ++ p.done, p.column + s.length⟩

/-- A new line, indented. -/
def lineBreak (p : Page) (indent : Nat) : Page :=
  ⟨List.replicate indent ' ' ++ '\n' :: p.done, indent⟩

/-- A line break of a text itself. -/
def ownBreak (p : Page) (c : Char) : Page := ⟨c :: p.done, 0⟩

end Page

/-- Words, runs of spaces and runs of line breaks, in turn. -/
def runs (s : List Char) : List (List Char) :=
  let kind (c : Char) : Nat := if c == ' ' then 1 else if isBreak c then 2 else 0
  s.foldr (fun c rs =>
    match rs with
    | (d :: r) :: rest => if kind c == kind d then (c :: d :: r) :: rest else [c] :: (d :: r) :: rest
    | _ => [[c]]) []

/-- Words and spaces between them; a single space beyond the width becomes a new line. The first and
the last run are never folded when `inner` is set. -/
def putRuns (indent : Nat) (inner : Bool) (mark : List Char → List Char) :
    Bool → Page → List (List Char) → Page
  | _, p, [] => p
  | first, p, r :: rest =>
    let p := match r with
      | ' ' :: _ =>
        let edge := inner && (first || rest.isEmpty)
        if r.length = 1 && lineWidth < p.column && !edge then p.lineBreak indent else p.put r
      | c :: _ =>
        if isBreak c then
          let p := if c == '\n' then p.ownBreak '\n' else p
          (r.foldl Page.ownBreak p).put (List.replicate indent ' ')
        else p.put (mark r)
      | [] => p
    putRuns indent inner mark false p rest

def putPlain (indent : Nat) (p : Page) (s : List Char) : Page :=
  putRuns indent false id true p (runs s)

/-- Between single quotes; a quote within is written twice. -/
def putSingle (indent : Nat) (p : Page) (s : List Char) : Page :=
  let twice (w : List Char) : List Char :=
    w.flatMap fun c => if c == Text.apostrophe then [c, c] else [c]
  (putRuns indent true twice true (p.put [Text.apostrophe]) (runs s)).put [Text.apostrophe]

/-! ## Double quotes -/

/-- Short escapes. -/
def shortEscapes : List (Nat × Char) :=
  [(0, '0'), (7, 'a'), (8, 'b'), (9, 't'), (10, 'n'), (11, 'v'), (12, 'f'), (13, 'r'), (27, 'e'),
   (34, '"'), (92, '\\'), (0x85, 'N'), (0x2028, 'L'), (0x2029, 'P')]

/-- A character that stands for itself between double quotes. -/
def isOwn (c : Char) : Bool :=
  let n := c.toNat
  c != '"' && c != '\\' && n != 0x2028 && n != 0x2029 && c != orderMark &&
    ((0x20 ≤ n && n ≤ 0x7E) || (0xA0 ≤ n && n ≤ 0xFFFD))

def escaped (c : Char) : List Char :=
  let n := c.toNat
  let upper (width : Nat) : List Char := (Text.hex width n).map Char.toUpper
  match shortEscapes.lookup n with
  | some e => ['\\', e]
  | none =>
    if n ≤ 0xFF then '\\' :: 'x' :: upper 2
    else if n ≤ 0xFFFF then '\\' :: 'u' :: upper 4
    else '\\' :: 'U' :: upper 8

/-- The rest of a text between double quotes. `held` is what stands for itself and is not written
yet, last character first; `first` says that nothing was read before. A line is folded before a
space, and before or after an escape, but not at the first and the last character. -/
def putDoubleFrom (indent : Nat) : Bool → List Char → Page → List Char → Page
  | _, held, p, [] => p.put held.reverse
  | first, held, p, c :: r =>
    let own := isOwn c
    let (held, p) := if own then (held, p) else ([], (p.put held.reverse).put (escaped c))
    let far := if own then lineWidth < p.column + held.length else lineWidth + 1 < p.column
    let next := if own then c :: r else r
    let (held, p) :=
      if far && !first && !r.isEmpty && (c == ' ' || held.isEmpty) then
        let p := ((p.put held.reverse).put ['\\']).lineBreak indent
        ([], if next.head? == some ' ' then p.put ['\\'] else p)
      else (held, p)
    putDoubleFrom indent false (if own then c :: held else held) p r

def putDouble (indent : Nat) (p : Page) (s : List Char) : Page :=
  (putDoubleFrom indent true [] (p.put ['"']) s).put ['"']

/-! ## Documents -/

def putText (indent : Nat) (p : Page) (s : String) : Page :=
  let cs := s.toList
  if canBePlain cs then putPlain indent p cs
  else if canBeSingle cs then putSingle indent p cs
  else putDouble indent p cs

/-- The text of a number, which has a point. -/
def numberText (x : Binary64) : String :=
  match x with
  | .nan => ".nan"
  | .infinite negative => if negative then "-.inf" else ".inf"
  | x =>
    let cs := (Number.text .plain x).toList
    if cs.contains '.' then String.ofList cs
    else String.ofList (cs.flatMap fun c => if c == 'e' then ".0e".toList else [c])

mutual

/-- A value after a key or dash of which `indent` is the column. -/
def putValue (indent : Nat) (inList : Bool) (p : Page) : Json → Page
  | .null => p.put " null".toList
  | .bool b => p.put (if b then " true".toList else " false".toList)
  | .int n => p.put (' ' :: Text.intDigits n)
  | .float x => p.put (' ' :: (numberText x).toList)
  | .str s => putText (indent + 2) (p.put [' ']) s
  | .arr xs =>
    if xs.isEmpty then p.put " []".toList
    else if inList then putItems (indent + 2) true (p.put [' ']) xs
    else putItems indent false p xs
  | .obj fs =>
    if fs.isEmpty then p.put " \x7b\x7d".toList
    else if inList then putFields (indent + 2) true (p.put [' ']) fs
    else putFields (indent + 2) false p fs

/-- The items of a list whose dashes are in column `indent`. The first stands in the line begun when
`here` is set. -/
def putItems (indent : Nat) (here : Bool) (p : Page) : List Json → Page
  | [] => p
  | x :: r =>
    let p := if here then p else p.lineBreak indent
    putItems indent false (putValue indent true (p.put ['-']) x) r

/-- The entries of a mapping whose keys are in column `indent`. -/
def putFields (indent : Nat) (here : Bool) (p : Page) : List (String × Json) → Page
  | [] => p
  | (k, v) :: r =>
    let p := if here then p else p.lineBreak indent
    putFields indent false (putValue indent false ((putText indent p k).put [':']) v) r

end

/-- The text of a mapping with these fields. -/
def print (fields : List (String × Json)) : String :=
  let page := if fields.isEmpty then (⟨[], 0⟩ : Page).put "\x7b\x7d".toList
    else putFields 0 true ⟨[], 0⟩ fields
  String.ofList ('\n' :: page.done).reverse

end TagLedger.Yaml
