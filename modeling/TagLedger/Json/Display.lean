import TagLedger.Json.Printer

/-!
# Values shown as plain text

A value that ends up where plain text is expected is shown as itself if it is a text. Inside
collections texts are quoted, truth values are capitalised and an absent value is `None`.
-/

namespace TagLedger.Json

/-- Items with a comma and a blank between them. -/
def commaed (items : List (List Char)) : List Char := (List.intersperse [',', ' '] items).flatten

mutual

/-- The text of a value inside a collection. -/
def showInner : Json → List Char
  | .null => "None".toList
  | .bool true => "True".toList
  | .bool false => "False".toList
  | .int n => Text.intDigits n
  | .float x => (Number.text .plain x).toList
  | .str s => (Text.quote s).toList
  | .arr items => '[' :: commaed (showItems items) ++ [']']
  | .obj fields => '\x7b' :: commaed (showFields fields) ++ ['\x7d']

def showItems : List Json → List (List Char)
  | [] => []
  | j :: r => showInner j :: showItems r

def showFields : List (String × Json) → List (List Char)
  | [] => []
  | (k, j) :: r => ((Text.quote k).toList ++ ':' :: ' ' :: showInner j) :: showFields r

end

/-- The text of a value on its own. -/
def display : Json → String
  | .str s => s
  | j => String.ofList (showInner j)

end TagLedger.Json
