import TagLedger.Text.Case
import TagLedger.Text.Numeral
import TagLedger.Text.Scan

/-!
# Numbers that a template computes

`{{lastMessageId}}` stands for the number of the last floor, and `+N` or `-N` right after it is added
or taken off; the result of a subtraction is at least one. `@N+M` is the sum. Both are replaced, and
again in the result, until nothing changes or the rounds are used up.

    expand rounds last s = .ok s        for an `s` without a double brace and a sum
-/

namespace TagLedger.Template

/-! ## Marks -/

/-- What is done to the number of the last floor. -/
inductive Offset where
  | none
  | plus (digits : List Char)
  | minus (digits : List Char)
  deriving DecidableEq

/-- Both spellings in double braces. -/
def builtinNames : List (List Char) :=
  ["\x7b\x7blastMessageId\x7d\x7d".toList, "\x7b\x7bLastMessageId\x7d\x7d".toList]

/-- The offset right after a builtin, and its number of characters. -/
def offsetOf : List Char → Offset × Nat
  | c :: r =>
    let ds := r.takeWhile Text.isDigit
    if ds.isEmpty then (.none, 0)
    else if c == '+' then (.plus ds, ds.length + 1)
    else if c == '-' then (.minus ds, ds.length + 1)
    else (.none, 0)
  | [] => (.none, 0)

def builtinMark : Text.MarkReader Offset := fun s =>
  (builtinNames.findSome? fun name => (Text.afterStart? name s).map fun r => (name, r)).map
    fun (name, r) =>
      let (offset, n) := offsetOf r
      (offset, name.length + n)

/-- The two terms of a sum after an at sign. -/
structure Sum where
  left : List Char
  right : List Char
  deriving DecidableEq

def sumMark : Text.MarkReader Sum
  | '@' :: r =>
    let left := r.takeWhile Text.isDigit
    if left.isEmpty then none
    else
      match r.drop left.length with
      | '+' :: r =>
        let right := r.takeWhile Text.isDigit
        if right.isEmpty then none else some (⟨left, right⟩, left.length + right.length + 2)
      | _ => none
  | _ => none

/-! ## Values -/

/-- The number that a name stands for: that of the last floor, or zero for an unknown name. -/
def builtinValue (last : Int) (name : String) : Int :=
  if Text.lower name = "lastmessageid" then last else 0

def Offset.value (last : Int) : Offset → Except Text.NumeralTooLong Int
  | .none => .ok last
  | .plus ds => (Text.readDigits ds).map fun (n : Nat) => last + n
  | .minus ds => (Text.readDigits ds).map fun (n : Nat) => max 1 (last - n)

/-- A number as text within the limit. -/
def numeral (n : Int) : Except Text.NumeralTooLong (List Char) :=
  (Text.writeInt n).map String.toList

def Offset.text (last : Int) (o : Offset) : Except Text.NumeralTooLong (List Char) :=
  (o.value last).bind numeral

def Sum.text (s : Sum) : Except Text.NumeralTooLong (List Char) := do
  let a ← Text.readDigits s.left
  let b ← Text.readDigits s.right
  return '@' :: (← numeral ((a : Int) + b))

/-! ## Rounds -/

/-- Every builtin, and then every sum, replaced once. -/
def expandOnce (last : Int) (s : List Char) : Except Text.NumeralTooLong (List Char) :=
  (Text.fill (Offset.text last) (Text.scan builtinMark s)).bind fun s =>
    Text.fill Sum.text (Text.scan sumMark s)

/-- Replaces until nothing changes, `rounds` times at most. -/
def expand : Nat → Int → List Char → Except Text.NumeralTooLong (List Char)
  | 0, _, s => .ok s
  | rounds + 1, last, s =>
    match expandOnce last s with
    | .error e => .error e
    | .ok t => if t = s then .ok s else expand rounds last t

end TagLedger.Template
