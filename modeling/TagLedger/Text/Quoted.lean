import TagLedger.Text.Ranges
import TagLedger.Text.HiddenTable

/-!
# Quoted text

`quote` shows a text between quotes so that it can be told from its surroundings: single quotes,
unless the text holds a single quote and no double quote. The quote in use, backslashes, line ends
and tabs are escaped by a backslash, characters without a printed form by their code point.
-/

namespace TagLedger.Text

/-- The single quote. -/
def apostrophe : Char := Char.ofNat 39

/-- `n` in base 16 with at least `width` digits. -/
def hex (width n : Nat) : List Char :=
  let ds := Nat.toDigits 16 n
  List.replicate (width - ds.length) '0' ++ ds

def isHidden (c : Char) : Bool :=
  if c.toNat < 128 then c.toNat < 32 || c.toNat == 127 else inRanges hiddenRanges c.toNat

/-- The escape of a code point: two, four or eight digits as needed. -/
def codeEscape (n : Nat) : List Char :=
  if n < 0x100 then '\\' :: 'x' :: hex 2 n
  else if n < 0x10000 then '\\' :: 'u' :: hex 4 n
  else '\\' :: 'U' :: hex 8 n

/-- How one character is shown between quotes `q`; `plain` says which characters show as they are. -/
def quoteChar (plain : Char → Bool) (q c : Char) : List Char :=
  if c == q || c == '\\' then ['\\', c]
  else if c == '\n' then ['\\', 'n']
  else if c == '\r' then ['\\', 'r']
  else if c == '\t' then ['\\', 't']
  else if plain c then [c]
  else codeEscape c.toNat

def quoteWith (plain : Char → Bool) (s : String) : String :=
  let cs := s.toList
  let q := if cs.contains apostrophe && !cs.contains '"' then '"' else apostrophe
  String.ofList (q :: cs.flatMap (quoteChar plain q) ++ [q])

/-- The text between quotes, printable characters as they are. -/
def quote (s : String) : String := quoteWith (fun c => !isHidden c) s

/-- The text between quotes in ASCII alone. -/
def quoteAscii (s : String) : String := quoteWith (fun c => c.toNat < 128 && !isHidden c) s

end TagLedger.Text
