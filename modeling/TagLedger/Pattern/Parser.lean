import TagLedger.Pattern.Basic

/-!
# Reading patterns

A pattern is read in one pass that keeps count of the groups: their names, which of them are closed
and how wide they are. Groups are referred to only once closed, and not from a look behind that
encloses them. A look behind needs a pattern of one width.
-/

namespace TagLedger.Pattern

/-! ## State -/

inductive ParseError where
  | malformed
  /-- A repetition count beyond all bounds. -/
  | hugeCount
  /-- A repetition count of too many digits. -/
  | longNumeral
  /-- Classes of ASCII and of Unicode are asked for by the same pattern. -/
  | mixedClasses
  deriving DecidableEq

structure ParseState where
  /-- The text that is left. -/
  rest : List Char
  flags : Flags
  /-- The widths of the groups that are closed, the last opened first. -/
  groups : List (Option (Nat × Option Nat))
  names : List (String × Nat)
  /-- The number of groups when the outermost look behind was entered. -/
  behindLimit : Option Nat
  /-- Groups that conditions ask for. -/
  conditions : List Nat
  /-- The letters of the switches that were set for the whole pattern. -/
  letters : List Char
  /-- A look behind has a pattern of more than one width. -/
  loose : Bool

abbrev Parse (α : Type) := StateT ParseState (Except ParseError) α

def malformed {α : Type} : Parse α := throw .malformed

/-- A character, or a backslash with the character after it. -/
inductive Token where
  | char (c : Char)
  | escape (c : Char)
  deriving DecidableEq

/-- The next token and the text after it; a backslash at the end is no token. -/
def splitToken : List Char → Except ParseError (Option (Token × List Char))
  | [] => .ok none
  | '\\' :: c :: r => .ok (some (.escape c, r))
  | ['\\'] => .error .malformed
  | c :: r => .ok (some (.char c, r))

def peek : Parse (Option Token) := do
  let s ← get
  match splitToken s.rest with
  | .ok t => return t.map (·.1)
  | .error e => throw e

def next : Parse (Option Token) := do
  let s ← get
  match splitToken s.rest with
  | .ok (some (t, r)) =>
    set { s with rest := r }
    return some t
  | .ok none => return none
  | .error e => throw e

/-- The next token, which has to be there. -/
def need : Parse Token := do
  match ← next with
  | some t => return t
  | none => malformed

/-- Goes over `c` if it comes next. -/
def accept (c : Char) : Parse Bool := do
  if (← peek) = some (.char c) then
    let _ ← next
    return true
  else return false

/-- Goes over `c`, which has to come next. -/
def expect (c : Char) : Parse Unit := do
  if ← accept c then return () else malformed

/-- The characters in front that satisfy a test, at most `n`. -/
def takeUpTo (n : Nat) (p : Char → Bool) : Parse (List Char) := do
  let s ← get
  let cs := (s.rest.take n).takeWhile p
  set { s with rest := s.rest.drop cs.length }
  return cs

/-- All characters in front that satisfy a test. -/
def takeAll (p : Char → Bool) : Parse (List Char) := do
  takeUpTo (← get).rest.length p

/-- The characters of the tokens before `stop`, which is passed too; at least one. -/
def takeUntil (stop : Char) : Nat → List Char → Parse (List Char)
  | 0, _ => malformed
  | fuel + 1, done => do
    match ← need with
    | .char c =>
      if c == stop then
        if done.isEmpty then malformed else return done.reverse
      else takeUntil stop fuel (c :: done)
    | .escape c => takeUntil stop fuel (c :: '\\' :: done)

def nameUntil (stop : Char) : Parse (List Char) := do
  takeUntil stop ((← get).rest.length + 1) []

/-- Goes over tokens up to and with `stop`, or to the end. -/
def skipPast (stop : Char) : Nat → Parse Bool
  | 0 => return false
  | fuel + 1 => do
    match ← next with
    | none => return false
    | some t => if t = .char stop then return true else skipPast stop fuel

/-! ## Groups -/

def openGroup (name : Option String) : Parse Nat := do
  let s ← get
  let i := s.groups.length + 1
  match name with
  | none => set { s with groups := none :: s.groups }
  | some n =>
    if (s.names.find? (·.1 == n)).isSome then malformed
    else set { s with groups := none :: s.groups, names := (n, i) :: s.names }
  return i

/-- The number of the group with a name. -/
def lookupName (names : List (String × Nat)) (name : String) : Option Nat :=
  (names.find? (·.1 == name)).map (·.2)

def closeGroup (i : Nat) (width : Nat × Option Nat) : Parse Unit :=
  modify fun s => { s with groups := s.groups.set (s.groups.length - i) (some width) }

/-- The width of a closed group. -/
def ParseState.closed? (s : ParseState) (i : Nat) : Option (Nat × Option Nat) :=
  if 1 ≤ i && i ≤ s.groups.length then (s.groups[s.groups.length - i]?).join else none

/-- Inside a look behind only groups closed before it may be asked for. -/
def checkBehind (i : Nat) : Parse Unit := do
  let s ← get
  match s.behindLimit with
  | some limit => if (s.closed? i).isSome && i ≤ limit then return () else malformed
  | none => return ()

/-- A reference to a closed group. -/
def backReference (i : Nat) : Parse Node := do
  let s ← get
  match s.closed? i with
  | some (low, high) =>
    checkBehind i
    return .back i low high s.flags
  | none => malformed

def isName : List Char → Bool
  | c :: r => Text.isWord c && !Text.isDigit c && r.all Text.isWord
  | [] => false

/-! ## Escapes -/

def isOctal (c : Char) : Bool := 48 ≤ c.toNat && c.toNat ≤ 55

def isHex (c : Char) : Bool :=
  Text.isAsciiDigit c || ('a' ≤ c && c ≤ 'f') || ('A' ≤ c && c ≤ 'F')

def hexDigit (c : Char) : Nat :=
  if c.toNat ≤ 57 then c.toNat - 48 else if c.toNat ≤ 70 then c.toNat - 55 else c.toNat - 87

def numberIn (base : Nat) (cs : List Char) : Nat := cs.foldl (fun n c => base * n + hexDigit c) 0

/-- The code written with exactly `n` hexadecimal digits. -/
def hexCode (n : Nat) : Parse Nat := do
  let cs ← takeUpTo n isHex
  if cs.length = n && numberIn 16 cs < 0x110000 then return numberIn 16 cs else malformed

/-- The code of an octal escape. -/
def octalCode (cs : List Char) : Parse Nat :=
  if numberIn 8 cs ≤ 255 then return numberIn 8 cs else malformed

def controlCode? (c : Char) : Option Nat :=
  match c with
  | 'a' => some 7
  | 'f' => some 12
  | 'n' => some 10
  | 'r' => some 13
  | 't' => some 9
  | 'v' => some 11
  | '\\' => some 92
  | _ => none

def classOf? (c : Char) : Option (Class × Bool) :=
  match c with
  | 'd' => some (.digit, false)
  | 'D' => some (.digit, true)
  | 's' => some (.space, false)
  | 'S' => some (.space, true)
  | 'w' => some (.word, false)
  | 'W' => some (.word, true)
  | _ => none

def anchorOf? (c : Char) : Option Anchor :=
  match c with
  | 'A' => some .textStart
  | 'b' => some .boundary
  | 'B' => some .noBoundary
  | 'Z' => some .textEnd
  | _ => none

/-- The code of an escape that stands for a character in and outside sets. -/
def commonEscape (c : Char) : Parse Nat := do
  match controlCode? c with
  | some n => return n
  | none =>
    if c == 'x' then hexCode 2
    else if c == 'u' then hexCode 4
    else if c == 'U' then hexCode 8
    else if c.isAlpha || Text.isAsciiDigit c then malformed
    else return c.toNat

/-- A reference by number, or an octal escape of three digits. -/
def numberEscape (c : Char) : Parse Node := do
  let flags := (← get).flags
  let second ← takeUpTo 1 Text.isAsciiDigit
  if second.length = 1 && isOctal c && second.all isOctal then
    let third ← takeUpTo 1 isOctal
    if third.length = 1 then return .char (← octalCode (c :: second ++ third)) flags
  backReference (numberIn 10 (c :: second))

/-- What is read as one piece of a sequence. -/
structure Piece where
  node : Node
  isAnchor : Bool
  isRepetition : Bool

def Piece.plain (n : Node) : Piece := ⟨n, false, false⟩

def escapePiece (c : Char) : Parse Piece := do
  let flags := (← get).flags
  match anchorOf? c, classOf? c with
  | some a, _ => return ⟨.anchor a flags.ascii, true, false⟩
  | none, some (k, negated) => return .plain (.set false [.ofClass k negated] flags)
  | none, none =>
    if c == '0' then
      return .plain (.char (← octalCode (← takeUpTo 2 isOctal)) flags)
    else if Text.isAsciiDigit c then return .plain (← numberEscape c)
    else return .plain (.char (← commonEscape c) flags)

/-! ## Sets -/

def memberEscape (c : Char) : Parse Member := do
  match classOf? c with
  | some (k, negated) => return .ofClass k negated
  | none =>
    if c == 'b' then return .code 8
    else if isOctal c then return .code (← octalCode (c :: (← takeUpTo 2 isOctal)))
    else return .code (← commonEscape c)

def member : Token → Parse Member
  | .char c => return .code c.toNat
  | .escape c => memberEscape c

/-- The members of a set up to its bracket, added to those read before. -/
def readMembers : Nat → List Member → Parse (List Member)
  | 0, _ => malformed
  | fuel + 1, done => do
    let t ← need
    if t = .char ']' && !done.isEmpty then return done.reverse
    let a ← member t
    if ← accept '-' then
      let u ← need
      if u = .char ']' then return (.code 45 :: a :: done).reverse
      match a, ← member u with
      | .code low, .code high =>
        if high < low then malformed else readMembers fuel (.span low high :: done)
      | _, _ => malformed
    else readMembers fuel (a :: done)

def readSet : Parse Node := do
  let negated ← accept '^'
  let s ← get
  return .set negated (← readMembers (s.rest.length + 1) []) s.flags

/-! ## Repetitions -/

/-- The bounds of a repetition in braces, or `none` if the braces are no such thing. -/
def readCounts : Parse (Option (Nat × Option Nat)) := do
  let start ← get
  if (← peek) = some (.char '\x7d') then return none
  let low ← takeAll Text.isAsciiDigit
  let high ← if ← accept ',' then takeAll Text.isAsciiDigit else pure low
  if !(← accept '\x7d') then
    set start
    return none
  -- a backslash that ends the pattern is seen before the counts are
  let _ ← peek
  let bound (ds : List Char) : Parse (Option Nat) :=
    if ds.isEmpty then return none
    else if Text.digitLimit < ds.length then throw .longNumeral
    else if numberIn 10 ds < 4294967295 then return some (numberIn 10 ds)
    else throw .hugeCount
  let l := (← bound low).getD 0
  let h ← bound high
  match h with
  | some n => if n < l then malformed else return some (l, h)
  | none => return some (l, none)

def quantifier (c : Char) : Parse (Option (Nat × Option Nat)) :=
  match c with
  | '?' => return some (0, some 1)
  | '*' => return some (0, none)
  | '+' => return some (1, none)
  | _ => readCounts

def readGreed : Parse Greed := do
  if ← accept '?' then return .lazy
  else if ← accept '+' then return .possessive
  else return .greedy

/-! ## Switches -/

/-- Changes to the switches: those turned on and off, and whether ASCII was asked for. -/
def Flags.turn (f : Flags) (c : Char) (on : Bool) : Flags :=
  match c with
  | 'i' => { f with ignoreCase := on }
  | 'm' => { f with multiline := on }
  | 's' => { f with dotAll := on }
  | 'x' => { f with verbose := on }
  | 'a' => { f with ascii := on }
  | 'u' => { f with ascii := !on }
  | _ => f

def isFlag (c : Char) : Bool := "imsxatu".toList.contains c

/-- Letters that may be turned on for a part of a pattern only. -/
def isLocalFlag (c : Char) : Bool := "imsxau".toList.contains c

/-- The letters of switches from `c` on, and the character that ends them. -/
def readFlagLetters (ends : List Char) : Nat → Char → List Char → Parse (List Char × Char)
  | 0, _, _ => malformed
  | fuel + 1, c, done => do
    if !isFlag c then malformed
    match ← need with
    | .char d =>
      if ends.contains d then return ((c :: done).reverse, d)
      else readFlagLetters ends fuel d (c :: done)
    | .escape _ => malformed

/-- Switches for the whole pattern (`none`), or those for a part of it. -/
def readSwitches (c : Char) : Parse (Option Flags) := do
  let s ← get
  let fuel := s.rest.length + 1
  let (on, stop) ← if c == '-' then pure ([], '-') else readFlagLetters [')', '-', ':'] fuel c []
  if on.contains 'a' && on.contains 'u' then malformed
  let raised := on.foldl (fun f c => f.turn c true) s.flags
  if stop == ')' then
    modify fun s => { s with flags := raised, letters := on ++ s.letters }
    return none
  if !on.all isLocalFlag then malformed
  if stop == ':' then return some raised
  match ← need with
  | .escape _ => malformed
  | .char d =>
    let (off, _) ← readFlagLetters [':'] fuel d []
    if off.all (fun c => "imsx".toList.contains c && !on.contains c) then
      return some (off.foldl (fun f c => f.turn c false) raised)
    else malformed

/-! ## Patterns -/

/-- The pieces of a sequence, the last first, as one pattern. -/
def joinPieces : List Piece → Node
  | [] => .empty
  | [p] => p.node
  | p :: r => r.foldl (fun n q => .seq q.node n) p.node

def isGap (c : Char) : Bool := c == ' ' || (9 ≤ c.toNat && c.toNat ≤ 13)

/-- The number of the group that a condition names. -/
def conditionIndex (name : List Char) : Parse Nat := do
  let s ← get
  if isName name then
    match lookupName s.names (String.ofList name) with
    | some i => return i
    | none => malformed
  else
    match Text.readLoose? (String.ofList name) with
    | some (.ok (.ofNat (i + 1))) =>
      if i + 1 < 1073741823 then
        set { s with conditions := (i + 1) :: s.conditions }
        return i + 1
      else malformed
    | _ => malformed

/-- Runs `p` under other switches. -/
def under {α : Type} (flags : Flags) (p : Parse α) : Parse α := do
  let saved := (← get).flags
  modify fun s => { s with flags := flags }
  let a ← p
  modify fun s => { s with flags := saved }
  return a

mutual

/-- Branches with bars between them. -/
def readBranches : Nat → Bool → Parse Node
  | 0, _ => malformed
  | fuel + 1, first => do
    let a ← readSequence fuel first []
    if ← accept '|' then return .alt a (← readBranches fuel false) else return a

/-- Pieces up to a bar, a closing parenthesis or the end, after those in `done`. -/
def readSequence : Nat → Bool → List Piece → Parse Node
  | 0, _, _ => malformed
  | fuel + 1, first, done => do
    match ← peek with
    | none => return joinPieces done
    | some (.escape c) =>
      let _ ← next
      readSequence fuel first ((← escapePiece c) :: done)
    | some (.char c) =>
      if c == '|' || c == ')' then return joinPieces done
      let _ ← next
      let flags := (← get).flags
      if flags.verbose && isGap c then readSequence fuel first done
      else if flags.verbose && c == '#' then
        let _ ← skipPast '\n' fuel
        readSequence fuel first done
      else if c == '?' || c == '*' || c == '+' || c == '\x7b' then
        match ← quantifier c with
        | none => readSequence fuel first (.plain (.char c.toNat flags) :: done)
        | some (low, high) =>
          match done with
          | p :: r =>
            if p.isAnchor || p.isRepetition then malformed
            let greed ← readGreed
            readSequence fuel first (⟨.many low high greed p.node, false, true⟩ :: r)
          | [] => malformed
      else
        match ← readPiece fuel c (first && done.isEmpty) with
        | some p => readSequence fuel first (p :: done)
        | none => readSequence fuel first done

/-- The piece that starts with `c`, if it leaves one. -/
def readPiece : Nat → Char → Bool → Parse (Option Piece)
  | 0, _, _ => malformed
  | fuel + 1, c, atStart => do
    let flags := (← get).flags
    match c with
    | '.' => return some (.plain (.any flags.dotAll))
    | '^' => return some ⟨.anchor (if flags.multiline then .lineStart else .textStart) flags.ascii,
        true, false⟩
    | '$' => return some ⟨.anchor (if flags.multiline then .lineEnd else .lastLineEnd) flags.ascii,
        true, false⟩
    | '[' => return some (.plain (← readSet))
    | '(' =>
      if ← accept '?' then readExtension fuel atStart
      else return some (.plain (← readGroup fuel none))
    | c => return some (.plain (.char c.toNat flags))

/-- A group that takes its text, from after its opening. -/
def readGroup : Nat → Option String → Parse Node
  | 0, _ => malformed
  | fuel + 1, name => do
    let i ← openGroup name
    let body ← under (← get).flags (readBranches fuel false)
    expect ')'
    closeGroup i body.width
    return .group i body

/-- What follows an opening parenthesis and a question mark. -/
def readExtension : Nat → Bool → Parse (Option Piece)
  | 0, _ => malformed
  | fuel + 1, atStart => do
    match ← need with
    | .escape _ => malformed
    | .char c =>
      let flags := (← get).flags
      let part (f : Flags) : Parse Node := do
        let body ← under f (readBranches fuel false)
        expect ')'
        return body
      match c with
      | 'P' =>
        if ← accept '<' then
          let name ← nameUntil '>'
          if isName name then return some (.plain (← readGroup fuel (some (String.ofList name))))
          else malformed
        else if ← accept '=' then
          let name ← nameUntil ')'
          match lookupName (← get).names (String.ofList name) with
          | some i => return some (.plain (← backReference i))
          | none => malformed
        else malformed
      | ':' => return some (.plain (← part flags))
      | '>' => return some (.plain (.atomic (← part flags)))
      | '#' => if ← skipPast ')' fuel then return none else malformed
      | '=' => return some (.plain (.ahead false (← part flags)))
      | '!' => return some (.plain (.ahead true (← part flags)))
      | '<' =>
        let negated ← match ← need with
          | .char '=' => pure false
          | .char '!' => pure true
          | _ => malformed
        let outer := (← get).behindLimit
        modify fun s => { s with behindLimit := some (outer.getD s.groups.length) }
        let body ← under flags (readBranches fuel false)
        modify fun s => { s with behindLimit := outer }
        expect ')'
        let (low, high) := body.width
        if high ≠ some low then modify fun s => { s with loose := true }
        return some (.plain (.behind negated low body))
      | '(' =>
        let i ← conditionIndex (← nameUntil ')')
        checkBehind i
        let yes ← under flags (readSequence fuel false [])
        let no ← if ← accept '|' then under flags (readSequence fuel false []) else pure .empty
        expect ')'
        return some (.plain (.cond i yes no))
      | c =>
        if isFlag c || c == '-' then
          match ← readSwitches c with
          | none => if atStart then return none else malformed
          | some f => return some (.plain (← part f))
        else malformed

end

/-! ## Whole patterns -/

/-- A pattern that was read, and the number of its groups. -/
structure Compiled where
  node : Node
  groups : Nat

/-- Reads a whole pattern. -/
def compile (flags : Flags) (source : String) : Except ParseError Compiled :=
  let cs := source.toList
  match readBranches (4 * cs.length + 4) true ⟨cs, flags, [], [], none, [], [], false⟩ with
  | .error e => .error e
  | .ok (node, s) =>
    if s.letters.contains 'a' && s.letters.contains 'u' then .error .mixedClasses
    else if s.rest.isEmpty && s.conditions.all (· ≤ s.groups.length) && !s.loose then
      .ok ⟨node, s.groups.length⟩
    else .error .malformed

end TagLedger.Pattern
