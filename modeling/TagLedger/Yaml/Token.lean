import TagLedger.Yaml.Scalar

/-!
# Tokens of settings

A text is cut into tokens from left to right. Indentation opens and closes blocks, so tokens stand
for that too. What a key is shows only at the colon after it: a token that may turn out to be one is
remembered, and the tokens that open the key are put in front of it when the colon comes.

    Token.cut s = .ok ts            every character of `s` belongs to a token, gap or comment
-/

namespace TagLedger.Yaml

/-! ## Types -/

/-- What a line that starts with a percent sign says. -/
inductive Directive where
  | version (major : Nat)
  /-- Tags that start with a handle stand for tags that start with `full`. -/
  | handle (name full : String)
  | other

inductive Token where
  | directive (d : Directive)
  | documentStart
  | documentEnd
  | blockList
  | blockMapping
  | blockEnd
  | flowList
  | flowListEnd
  | flowMapping
  | flowMappingEnd
  /-- The dash in front of an item. -/
  | item
  | comma
  | key
  | value
  | aliasOf (name : String)
  | anchor (name : String)
  | tag (handle : Option String) (suffix : String)
  | scalar (plain : Bool) (text : String)

/-- A token that may turn out to be a key. -/
structure Candidate where
  /-- How many tokens are before it. -/
  place : Nat
  /-- It stands where the block around it expects a key. -/
  required : Bool
  cursor : Cursor

/-- What is read and where the reading stands. -/
structure Cut where
  cursor : Cursor
  tokens : Array Token
  /-- The column of the innermost block, -1 outside of all. -/
  indent : Int
  /-- The columns of the blocks around it. -/
  outer : List Int
  /-- The candidate of the block, after those of the open brackets. -/
  candidates : List (Option Candidate)
  /-- A key may start here. -/
  allowKey : Bool

namespace Cut

def start (s : List Char) : Cut := ⟨.start s, #[], -1, [], [none], true⟩

/-- Within brackets. -/
def inFlow (s : Cut) : Bool := 1 < s.candidates.length

def push (s : Cut) (t : Token) : Cut := { s with tokens := s.tokens.push t }

/-- Over `n` characters that are the token `t`. -/
def symbol (s : Cut) (t : Token) (n : Nat) : Cut :=
  { s.push t with cursor := Cursor.drop n s.cursor }

/-! ## Candidates -/

/-- How far a colon may be from the start of its key. -/
def keyReach : Nat := 1024

def isStale (s : Cut) (k : Candidate) : Bool :=
  k.cursor.line != s.cursor.line || decide (keyReach < s.cursor.index - k.cursor.index)

/-- Drops the candidates whose colon can no longer come. -/
def dropStale (s : Cut) : Except Fault Cut :=
  let stale (k : Option Candidate) : Bool := k.any s.isStale
  if s.candidates.any fun k => stale k && k.any (·.required) then .error .malformed
  else .ok { s with candidates := s.candidates.map fun k => if stale k then none else k }

/-- Sets the candidate of the innermost bracket or block. -/
def setCandidate (s : Cut) (k : Option Candidate) : Cut :=
  { s with candidates := k :: s.candidates.tail }

def candidate (s : Cut) : Option Candidate := s.candidates.head?.join

/-- Gives up the candidate, which is a fault if a key was expected. -/
def dropCandidate (s : Cut) : Except Fault Cut :=
  if s.candidate.any (·.required) then .error .malformed else .ok (s.setCandidate none)

/-- The next token may turn out to be a key, where keys are allowed. -/
def noteCandidate (s : Cut) : Except Fault Cut :=
  if s.allowKey then
    s.dropCandidate.map fun s =>
      let required := !s.inFlow && s.indent == (s.cursor.column : Int)
      s.setCandidate (some ⟨s.tokens.size, required, s.cursor⟩)
  else .ok s

/-! ## Indentation -/

def closeBlocks (column : Int) : Nat → Cut → Cut
  | 0, s => s
  | fuel + 1, s =>
    if column < s.indent then
      closeBlocks column fuel
        { s.push .blockEnd with indent := s.outer.headD (-1), outer := s.outer.tail }
    else s

/-- Closes the blocks that stand deeper than a column. -/
def unwind (s : Cut) (column : Int) : Cut :=
  if s.inFlow then s else closeBlocks column (s.outer.length + 1) s

/-- Opens a block at a column, if that is deeper; whether it did. -/
def deepen (s : Cut) (column : Nat) : Bool × Cut :=
  if s.indent < (column : Int) then
    (true, { s with indent := column, outer := s.indent :: s.outer })
  else (false, s)

/-- Opens a block here with the token `t`, if this is deeper. Keys must be allowed. -/
def openBlock (s : Cut) (t : Token) : Except Fault Cut :=
  if s.inFlow then .ok s
  else if !s.allowKey then .error .malformed
  else
    let (opened, s) := s.deepen s.cursor.column
    .ok (if opened then s.push t else s)

/-! ## Gaps -/

/-- Over spaces, comments and line breaks. A new line of a block may start with a key. -/
def skipGaps : Nat → Cut → Cut
  | 0, s => s
  | fuel + 1, s =>
    let c := s.cursor.skipSpaces
    let c := match c.rest with
      | '#' :: _ => c.skip (!isBreak ·)
      | _ => c
    match c.rest with
    | [] => { s with cursor := c }
    | x :: _ =>
      if isBreak x then
        skipGaps fuel { s with cursor := c.next, allowKey := s.allowKey || !s.inFlow }
      else { s with cursor := c }

/-! ## Names, tags and directives -/

/-- A name and the place after it. -/
def name (c : Cursor) : Except Fault (String × Cursor) :=
  let (cs, c) := c.take isNameChar
  if cs.isEmpty then .error .malformed else .ok (String.ofList cs, c)

/-- What may follow the name of an anchor. -/
def endsName (c : Char) : Bool :=
  isGap c || c == '?' || c == ':' || c == ',' || c == ']' || c == '\x7d' || c == '%' || c == '@' ||
    c == Char.ofNat 96

/-- A space or a line break. -/
def isSpaceOrBreak (c : Char) : Bool := c == ' ' || isBreak c

def anchorName (c : Cursor) : Except Fault (String × Cursor) := do
  let (n, c) ← name c.next
  if endsOr endsName c.rest then return (n, c) else .error .malformed

/-- The characters of tags, the escape sign excepted. -/
def isTagChar (c : Char) : Bool :=
  isNameChar c || c == Text.apostrophe || ";/?:@&=+$,.!~*()[]".toList.contains c

/-- The bytes that percent escapes stand for. -/
def escapedBytes : Nat → Cursor → Except Fault (List UInt8 × Cursor)
  | 0, c => .ok ([], c)
  | fuel + 1, c =>
    match c.rest with
    | '%' :: a :: b :: _ =>
      match Text.hexDigit? a, Text.hexDigit? b with
      | some a, some b =>
        (escapedBytes fuel (Cursor.drop 3 c)).map fun (bs, c) => (UInt8.ofNat (16 * a + b) :: bs, c)
      | _, _ => .error .malformed
    | '%' :: _ => .error .malformed
    | _ => .ok ([], c)

def tagText : Nat → List Char → Cursor → Except Fault (List Char × Cursor)
  | 0, done, c => .ok (done, c)
  | fuel + 1, done, c =>
    let (cs, c) := c.take isTagChar
    match c.rest with
    | '%' :: _ =>
      match escapedBytes (c.rest.length + 1) c with
      | .error e => .error e
      | .ok (bs, c) =>
        match String.fromUTF8? ⟨bs.toArray⟩ with
        | none => .error .malformed
        | some t => tagText fuel (done ++ cs ++ t.toList) c
    | _ => .ok (done ++ cs, c)

/-- A tag, or what is left of it after its handle. -/
def tagSuffix (c : Cursor) : Except Fault (String × Cursor) := do
  let (cs, c) ← tagText (c.rest.length + 1) [] c
  if cs.isEmpty then .error .malformed else return (String.ofList cs, c)

/-- A handle of tags: one exclamation mark, or a name between two. -/
def tagHandle (c : Cursor) : Except Fault (String × Cursor) :=
  match c.rest with
  | '!' :: r =>
    if r.head? == some ' ' then .ok ("!", c.next)
    else
      let (cs, after) := c.next.take isNameChar
      match after.rest with
      | '!' :: _ => .ok (String.ofList ('!' :: cs ++ ['!']), after.next)
      | _ => .error .malformed
  | _ => .error .malformed

def tagToken (c : Cursor) : Except Fault (Token × Cursor) := do
  let (t, c) ← match c.next.rest with
    | [] => .ok (Token.tag none "!", c.next)
    | '<' :: _ =>
      (tagSuffix (Cursor.drop 2 c)).bind fun (suffix, c) =>
        match c.rest with
        | '>' :: _ => .ok (.tag none suffix, c.next)
        | _ => .error .malformed
    | x :: r =>
      if isGap x then .ok (.tag none "!", c.next)
      else
        let body := (x :: r).takeWhile (!isSpaceOrBreak ·)
        let handle := if body.contains '!' then tagHandle c else .ok ("!", c.next)
        handle.bind fun (h, c) => (tagSuffix c).map fun (suffix, c) => (.tag (some h) suffix, c)
  if endsOr isSpaceOrBreak c.rest then return (t, c) else .error .malformed

/-- A row of digits. -/
def digits (c : Cursor) : Except Fault (Nat × Cursor) :=
  let (ds, c) := c.take Text.isAsciiDigit
  if ds.isEmpty then .error .malformed
  else
    match Text.readDigits ds with
    | .ok n => .ok (n, c)
    | .error _ => .error .badValue

def versionDirective (c : Cursor) : Except Fault (Directive × Cursor) := do
  let (major, c) ← digits c.skipSpaces
  match c.rest with
  | '.' :: _ =>
    let (_, c) ← digits c.next
    if endsOr isSpaceOrBreak c.rest then return (.version major, c) else .error .malformed
  | _ => .error .malformed

def handleDirective (c : Cursor) : Except Fault (Directive × Cursor) := do
  let (h, c) ← tagHandle c.skipSpaces
  if c.rest.head? != some ' ' then .error .malformed
  let (full, c) ← tagSuffix c.skipSpaces
  if endsOr isSpaceOrBreak c.rest then return (.handle h full, c) else .error .malformed

def directive (c : Cursor) : Except Fault (Directive × Cursor) := do
  let (n, c) ← name c.next
  if !endsOr isSpaceOrBreak c.rest then .error .malformed
  let (d, c) ←
    if n = "YAML" then versionDirective c
    else if n = "TAG" then handleDirective c
    else .ok (.other, c.skip (!isBreak ·))
  let c ← c.endLine
  return (d, c)

/-! ## Tokens -/

/-- A mark between documents, or a directive: closes everything. -/
def closing (s : Cut) : Except Fault Cut :=
  (s.unwind (-1)).dropCandidate.map fun s => { s with allowKey := false }

/-- A token that may be a key, read by `read`. -/
def word (s : Cut) (read : Cursor → Except Fault (Token × Cursor)) : Except Fault Cut := do
  let s ← s.noteCandidate
  let (t, c) ← read s.cursor
  return { s.push t with cursor := c, allowKey := false }

def openBracket (s : Cut) (t : Token) : Except Fault Cut :=
  s.noteCandidate.map fun s =>
    { s.symbol t 1 with candidates := none :: s.candidates, allowKey := true }

def closeBracket (s : Cut) (t : Token) : Except Fault Cut :=
  if !s.inFlow then .error .malformed
  else
    s.dropCandidate.map fun s =>
      { s.symbol t 1 with candidates := s.candidates.tail, allowKey := false }

/-- The colon after a key: the tokens that open the key go in front of it. -/
def colon (s : Cut) : Except Fault Cut :=
  match s.candidate with
  | some k =>
    let s := s.setCandidate none
    let s := { s with tokens := s.tokens.insertIdxIfInBounds k.place .key, allowKey := false }
    let (opened, s) := if s.inFlow then (false, s) else s.deepen k.cursor.column
    let s := if opened then
        { s with tokens := s.tokens.insertIdxIfInBounds k.place .blockMapping }
      else s
    .ok (s.symbol .value 1)
  | none => do
    let s ← s.openBlock .blockMapping
    let s ← { s with allowKey := !s.inFlow }.dropCandidate
    return s.symbol .value 1

def plainToken (s : Cut) : Except Fault Cut := do
  let s ← s.noteCandidate
  let (text, gap) := plain s.inFlow (s.indent + 1).toNat s.cursor
  return { s.push (.scalar true text) with cursor := gap.after, allowKey := gap.broken }

def quotedToken (s : Cut) (quote : Char) : Except Fault Cut :=
  s.word fun c => (quoted quote c).map fun (t, c) => (.scalar false t, c)

def blockToken (s : Cut) (folded : Bool) : Except Fault Cut := do
  let s ← { s with allowKey := true }.dropCandidate
  let (text, c) ← block folded s.indent s.cursor.next
  return { s.push (.scalar false text) with cursor := c }

/-- Whether a plain scalar can start with `c` before `r`. -/
def startsPlain (inFlow : Bool) (c : Char) (r : List Char) : Bool :=
  let reserved := isGap c || c == Text.apostrophe || c == Char.ofNat 96 ||
    "-?:,[]\x7b\x7d#&*!|>\"%@".toList.contains c
  !reserved || (!endsOr isGap r && (c == '-' || (!inFlow && (c == '?' || c == ':'))))

/-- The next token, which starts with `x` before `r`. -/
def token (s : Cut) (x : Char) (r : List Char) : Except Fault Cut :=
  let lineStart := s.cursor.column == 0
  let apart := s.inFlow || endsOr isGap r
  if x == '%' && lineStart then do
    let s ← s.closing
    let (d, c) ← directive s.cursor
    return { s.push (.directive d) with cursor := c }
  else if lineStart && isSeparator (x :: r) then
    s.closing.map fun s => s.symbol (if x == '-' then .documentStart else .documentEnd) 3
  else if x == '[' then s.openBracket .flowList
  else if x == '\x7b' then s.openBracket .flowMapping
  else if x == ']' then s.closeBracket .flowListEnd
  else if x == '\x7d' then s.closeBracket .flowMappingEnd
  else if x == ',' then do
    let s ← { s with allowKey := true }.dropCandidate
    return s.symbol .comma 1
  else if x == '-' && endsOr isGap r then do
    let s ← s.openBlock .blockList
    let s ← { s with allowKey := true }.dropCandidate
    return s.symbol .item 1
  else if x == '?' && apart then do
    let s ← s.openBlock .blockMapping
    let s ← { s with allowKey := !s.inFlow }.dropCandidate
    return s.symbol .key 1
  else if x == ':' && apart then s.colon
  else if x == '*' then s.word fun c => (anchorName c).map fun (n, c) => (.aliasOf n, c)
  else if x == '&' then s.word fun c => (anchorName c).map fun (n, c) => (.anchor n, c)
  else if x == '!' then s.word tagToken
  else if x == '|' && !s.inFlow then s.blockToken false
  else if x == '>' && !s.inFlow then s.blockToken true
  else if x == '"' || x == Text.apostrophe then s.quotedToken x
  else if startsPlain s.inFlow x r then s.plainToken
  else .error .malformed

/-- All tokens from here on. The fuel bounds them. -/
def run : Nat → Cut → Except Fault (List Token)
  | 0, _ => .error .malformed
  | fuel + 1, s => do
    let s ← (skipGaps (s.cursor.rest.length + 1) s).dropStale
    let s := s.unwind s.cursor.column
    match s.cursor.rest with
    | [] => s.closing.map (·.tokens.toList)
    | x :: r => run fuel (← s.token x r)

end Cut

/-- Cuts a text into tokens; the mark that may stand in front of it is none. -/
def Token.cut (s : List Char) : Except Fault (List Token) :=
  if !s.all isPrintable then .error .malformed
  else
    let start := Cut.start s
    let start :=
      if s.head? == some orderMark then { start with cursor := start.cursor.next } else start
    start.run (s.length + 1)

end TagLedger.Yaml
