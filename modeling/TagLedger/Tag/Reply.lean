import TagLedger.Text.Case
import TagLedger.Text.Scan
import TagLedger.Transcript.Render
import TagLedger.Variable.Basic

/-!
# Tagged segments of a reply

A reply gives the contents of variables between tags. `[name]` with a later `[/name]` takes what
stands between; if no pair closes, each `[name]` takes what follows it up to the next opening tag of
any variable, the next `[/`, or the end. Contents are trimmed, blank ones dropped, and several of one
variable joined by a blank line. Letter case does not matter in tags.

    (parse reply ds).map (·.tag) is a sublist of ds.map (·.tag)
-/

namespace TagLedger

/-! ## Tokens -/

namespace Tag

/-- The text starts with `start`, case ignored; what follows it. -/
def afterFolded? : List Char → List Char → Option (List Char)
  | [], s => some s
  | c :: t, d :: s => if Text.sameLetter c d then afterFolded? t s else none
  | _ :: _, [] => none

def openToken (label : List Char) : List Char := '[' :: label ++ [']']

def closeToken (label : List Char) : List Char := '[' :: '/' :: label ++ [']']

/-- What follows an opening tag in front. -/
def afterOpen? (label s : List Char) : Option (List Char) := afterFolded? (openToken label) s

def startsOpen (label s : List Char) : Bool := (afterOpen? label s).isSome

/-- The text before the first place where `stop` holds, and the text from there. -/
def breakAt? (stop : List Char → Bool) : List Char → Option (List Char × List Char)
  | [] => if stop [] then some ([], []) else none
  | c :: r =>
    if stop (c :: r) then some ([], c :: r)
    else (breakAt? stop r).map fun (a, b) => (c :: a, b)

/-! ## Segments -/

/-- An opening tag in front, the text up to the nearest closing tag, and the length of it all. -/
def closedMark (label : List Char) : Text.MarkReader (List Char) := fun s =>
  (afterOpen? label s).bind fun r =>
    (breakAt? (fun t => (afterFolded? (closeToken label) t).isSome) r).map fun (body, _) =>
      (body, (openToken label).length + body.length + (closeToken label).length)

/-- A segment that is not closed ends here. -/
def endsOpen (labels : List (List Char)) (s : List Char) : Bool :=
  s.isEmpty || (Text.afterStart? ['[', '/'] s).isSome || labels.any fun l => startsOpen l s

/-- An opening tag in front and the text up to where an unclosed segment ends. -/
def openMark (labels : List (List Char)) (label : List Char) : Text.MarkReader (List Char) :=
  fun s =>
    (afterOpen? label s).bind fun r =>
      (breakAt? (endsOpen labels) r).map fun (body, _) =>
        (body, (openToken label).length + body.length)

/-- The bodies of a tag: of its closed segments, or of the unclosed ones if there is none. -/
def bodies (labels : List (List Char)) (label reply : List Char) : List (List Char) :=
  match Text.marks (closedMark label) reply with
  | [] => Text.marks (openMark labels label) reply
  | bs => bs

/-- The content of a tag in a reply, empty if it has none. -/
def content (labels : List (List Char)) (label reply : List Char) : String :=
  joinBlocks (((bodies labels label reply).map Text.trim).filter (!·.isEmpty) |>.map String.ofList)

end Tag

/-! ## Reading a reply -/

/-- The content that a reply gives for a tag. -/
structure Tagged where
  tag : String
  content : String
  deriving DecidableEq

def Tagged.document (t : Tagged) : Json :=
  .obj [("tag", .str t.tag), ("content", .str t.content)]

/-- The contents that a reply gives, in the order of the definitions. -/
def parseReply (reply : String) (ds : List Definition) : List Tagged :=
  let labels := ds.map fun d => Tag.strip d.tag.toList
  ds.filterMap fun d =>
    let content := Tag.content labels (Tag.strip d.tag.toList) reply.toList
    if content = "" then none else some ⟨d.tag, content⟩

/-- The tags that a reply left out. -/
def missingTags (found : List Tagged) (ds : List Definition) : List String :=
  (ds.map (·.tag)).filter fun t => !(found.map (·.tag)).contains t

/-! ## Asking for tags -/

/-- The line that asks for the content of a variable. -/
def Definition.instruction (d : Definition) : String :=
  let hint := match d.mode with
    | .stack => "(multiple entries allowed)"
    | .replace => "(single entry)"
  "[" ++ d.label ++ "]Your " ++ d.label ++ " content " ++ hint ++ "[/" ++ d.label ++ "]"

/-- The lines that ask for tagged contents. -/
def instructions (ds : List Definition) : String :=
  if ds.isEmpty then ""
  else
    String.intercalate "\n"
      ("Please output using the following format:" :: ds.map Definition.instruction)

/-- An example of a reply. -/
def exampleReply (ds : List Definition) : String :=
  String.join (ds.map fun d => "[" ++ d.label ++ "]...[/" ++ d.label ++ "]")

/-! ## Looking for tags -/

/-- Whether a reply opens a tag anywhere. -/
def hasTag (reply tag : String) : Bool :=
  !(Text.marks (fun s => (Tag.afterOpen? (Tag.strip tag.toList) s).map fun _ => ((), 1))
    reply.toList).isEmpty

/-- Any bracket that does not close a tag, by what it holds. -/
def anyTagMark : Text.MarkReader (List Char)
  | '[' :: r =>
    let name := r.takeWhile fun c => c != '[' && c != ']' && c != '/'
    if name.isEmpty then none
    else
      match r.drop name.length with
      | ']' :: _ => some (name, name.length + 2)
      | _ => none
  | _ => none

/-- The distinct names in brackets, in order of appearance. -/
def tagNames (reply : String) : List String :=
  ((Text.marks anyTagMark reply.toList).eraseDups).map String.ofList

end TagLedger
