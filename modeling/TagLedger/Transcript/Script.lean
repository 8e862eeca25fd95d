import TagLedger.Pattern.Substitution
import TagLedger.Json.Basic
import TagLedger.Suite.Basic

/-!
# Scripts on floors

A script finds a pattern in the text of a floor and replaces it. The pattern stands between slashes
with letters for its switches after it, or alone. Scripts run in the order that is asked for; those
that are not mentioned there come after, as they stand.

    s.ordered.Perm s.enabled    if the order mentions no identifier of two of them
-/

namespace TagLedger

/-! ## Reading the search -/

/-- The pattern between slashes and the letters after it. -/
def splitSlashes (s : List Char) : Option (List Char × List Char) :=
  match s with
  | '/' :: r =>
    let back := if r.getLast? = some '\n' then r.dropLast.reverse else r.reverse
    let letters := back.takeWhile fun c => 'a' ≤ c && c ≤ 'z'
    match back.drop letters.length with
    | '/' :: p => if p.isEmpty then none else some (p.reverse, letters.reverse)
    | _ => none
  | _ => none

/-- Why a script cannot run. -/
inductive ScriptError where
  | hugeCount
  | numeralTooLong
  /-- Its pattern asks for classes of ASCII and of Unicode. -/
  | mixedClasses
  deriving DecidableEq

/-- A search that was read: its pattern, or why that cannot be run, and whether every match is
replaced. -/
structure Search where
  pattern : Except ScriptError Pattern.Compiled
  all : Bool

/-- Why a text gives no search. -/
inductive SearchError where
  /-- It is empty or its pattern cannot be read. -/
  | unreadable
  | hugeCount
  deriving DecidableEq

/-- Reads `/pattern/letters`, or a pattern alone: `g` replaces every match, as a lone pattern does,
and `i`, `m`, `s` set switches. -/
def Search.read (find : String) : Except SearchError Search :=
  if find = "" then .error .unreadable
  else
    let (source, letters, lone) := match splitSlashes find.toList with
      | some (p, l) => (String.ofList p, l, false)
      | none => (find, [], true)
    let flags : Pattern.Flags :=
      ⟨letters.contains 'i', letters.contains 'm', letters.contains 's', false, false⟩
    let all := letters.contains 'g' || lone
    match Pattern.compile flags source with
    | .ok pattern => .ok ⟨.ok pattern, all⟩
    | .error .malformed => .error .unreadable
    | .error .hugeCount => .error .hugeCount
    | .error .longNumeral => .ok ⟨.error .numeralTooLong, all⟩
    | .error .mixedClasses => .ok ⟨.error .mixedClasses, all⟩

/-! ## Running scripts -/

/-- The text with the matches of a search replaced. -/
def Search.replace (s : Search) (replacement text : String) : Except ScriptError String :=
  match s.pattern with
  | .error e => .error e
  | .ok pattern =>
    let cut := Pattern.cuts pattern.node s.all text.toList
    match cut.substitute (Pattern.expand pattern.groups replacement.toList) with
    | .ok t => .ok (String.ofList t)
    | .error _ => .error .numeralTooLong

/-- Runs a script on a text; one that cannot be read leaves the text alone. -/
def Script.run (s : Script) (text : String) : Except ScriptError String :=
  if text = "" then .ok text
  else
    match Search.read s.find with
    | .ok search => search.replace s.replacement text
    | .error .unreadable => .ok text
    | .error .hugeCount => .error .hugeCount

/-- Runs scripts one after another. -/
def runScripts (scripts : List Script) (text : String) : Except ScriptError String :=
  scripts.foldlM (fun t s => s.run t) text

/-! ## Order -/

namespace ScriptSet

def enabled (s : ScriptSet) : List Script := s.scripts.filter fun x => !x.disabled

/-- The scripts of a list by identifier; a later script takes the place of an earlier one. -/
def byId (scripts : List Script) : List (String × Script) :=
  scripts.foldl (fun m s => Json.insert m s.id s) []

/-- Takes the scripts named in an order out of a map, in that order. -/
def takeOrdered : List String → List (String × Script) → List Script × List (String × Script)
  | [], m => ([], m)
  | i :: r, m =>
    match Json.find? m i with
    | some s =>
      let (out, rest) := takeOrdered r (m.filter fun e => e.1 != i)
      (s :: out, rest)
    | none => takeOrdered r m

/-- The enabled scripts in the order in which they run. -/
def ordered (s : ScriptSet) : List Script :=
  if s.order.isEmpty then s.enabled
  else
    let (first, rest) := takeOrdered s.order (byId s.enabled)
    first ++ s.enabled.filter fun x => (Json.find? rest x.id).isSome

/-- The scripts that run on floors that go into a prompt. -/
def active (s : ScriptSet) : List Script := if s.promptOnly then s.ordered else []

end ScriptSet

end TagLedger
