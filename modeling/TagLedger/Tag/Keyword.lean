import TagLedger.Suite.Basic
import TagLedger.Text.Case

/-!
# Keywords

A keyword is found in a message if its text in lower case is part of the message in lower case.

    mentions "" ks = false
-/

namespace TagLedger

/-- `s` contains `part` as consecutive characters. -/
def containsText (part s : List Char) : Bool :=
  match s with
  | [] => part.isEmpty
  | c :: r => part.isPrefixOf (c :: r) || containsText part r

/-- Whether a message mentions one of the keywords, empty ones left aside. -/
def mentions (message : String) (keywords : List String) : Bool :=
  message != "" &&
    (keywords.filter (· != "")).any fun k =>
      containsText (Text.lower k).toList (Text.lower message).toList

end TagLedger
