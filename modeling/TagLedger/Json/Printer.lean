import TagLedger.Json.Basic
import TagLedger.Number.Shortest
import TagLedger.Text.Numeral
import TagLedger.Text.Quoted

/-!
# Writing document trees

A tree is written on one line, or over several lines indented by two blanks per level. Texts are
written between double quotes with short escapes for the common controls; the narrow form escapes
everything outside printable ASCII, as pairs of surrogates beyond U+FFFF.
-/

namespace TagLedger.Json

/-! ## Texts -/

/-- The escape of one UTF-16 unit. -/
def unitEscape (n : Nat) : List Char := '\\' :: 'u' :: Text.hex 4 n

def escapeChar (ascii : Bool) (c : Char) : List Char :=
  if c == '"' then ['\\', '"']
  else if c == '\\' then ['\\', '\\']
  else if c == '\n' then ['\\', 'n']
  else if c == '\r' then ['\\', 'r']
  else if c == '\t' then ['\\', 't']
  else
    let n := c.toNat
    if n == 8 then ['\\', 'b']
    else if n == 12 then ['\\', 'f']
    else if n < 32 then unitEscape n
    else if n < 127 || !ascii then [c]
    else if n < 0x10000 then unitEscape n
    else unitEscape (0xD800 + (n - 0x10000) / 0x400) ++ unitEscape (0xDC00 + (n - 0x10000) % 0x400)

def quoted (ascii : Bool) (s : String) : List Char :=
  '"' :: s.toList.flatMap (escapeChar ascii) ++ ['"']

/-! ## Trees -/

/-- How a tree is laid out. -/
structure Style where
  /-- Escape everything outside printable ASCII. -/
  ascii : Bool
  /-- Break lines and indent. -/
  broken : Bool

/-- One line, ASCII only. -/
def Style.line : Style := ⟨true, false⟩

/-- One line, characters as they are. -/
def Style.wideLine : Style := ⟨false, false⟩

/-- Indented, characters as they are. -/
def Style.page : Style := ⟨false, true⟩

/-- A line break followed by the indentation of a level. -/
def newline (level : Nat) : List Char := '\n' :: List.replicate (2 * level) ' '

/-- Between the items of a collection at a level. -/
def Style.separator (style : Style) (level : Nat) : List Char :=
  ',' :: (if style.broken then newline level else [' '])

/-- The brackets of a collection whose items, at `level + 1`, are written already. -/
def Style.wrap (style : Style) (level : Nat) (l r : Char) : List (List Char) → List Char
  | [] => [l, r]
  | items =>
    let body := (List.intersperse (style.separator (level + 1)) items).flatten
    if style.broken then l :: newline (level + 1) ++ body ++ newline level ++ [r]
    else l :: body ++ [r]

mutual

/-- The text of a tree whose first line stands at `level`. -/
def write (style : Style) (level : Nat) : Json → List Char
  | .null => "null".toList
  | .bool true => "true".toList
  | .bool false => "false".toList
  | .int n => Text.intDigits n
  | .float x => (Number.text .document x).toList
  | .str s => quoted style.ascii s
  | .arr items => style.wrap level '[' ']' (writeItems style (level + 1) items)
  | .obj fields => style.wrap level '\x7b' '\x7d' (writeFields style (level + 1) fields)

def writeItems (style : Style) (level : Nat) : List Json → List (List Char)
  | [] => []
  | j :: r => write style level j :: writeItems style level r

def writeFields (style : Style) (level : Nat) : List (String × Json) → List (List Char)
  | [] => []
  | (k, j) :: r =>
    (quoted style.ascii k ++ ':' :: ' ' :: write style level j) :: writeFields style level r

end

/-- The text of a tree. -/
def render (style : Style) (j : Json) : String := String.ofList (write style 0 j)

/-! ## Long numerals -/

mutual

/-- Every integer in the tree has a numeral within the limit. -/
def writable : Json → Bool
  | .int n => (Text.natDigits n.natAbs).length ≤ Text.digitLimit
  | .arr items => writableItems items
  | .obj fields => writableFields fields
  | _ => true

def writableItems : List Json → Bool
  | [] => true
  | j :: r => writable j && writableItems r

def writableFields : List (String × Json) → Bool
  | [] => true
  | (_, j) :: r => writable j && writableFields r

end

/-- The text of a tree, refused when one of its integers has too many digits. -/
def render? (style : Style) (j : Json) : Except Text.NumeralTooLong String :=
  if writable j then .ok (render style j) else .error {}

end TagLedger.Json
