import TagLedger.Yaml.Token

/-!
# Trees of settings

The tokens of one document form a tree of scalars, lists and mappings. A part of it may be given a
name, and a later part may be that part again. What is left out reads as an empty plain scalar.
-/

namespace TagLedger.Yaml

/-- What a node says about itself besides its content. -/
structure Property where
  anchor : Option String
  tag : Option String

inductive Node where
  | again (name : String)
  | scalar (property : Property) (plain : Bool) (text : String)
  | list (property : Property) (items : List Node)
  | mapping (property : Property) (entries : List (Node × Node))

def Property.none : Property := ⟨Option.none, Option.none⟩

/-- The node that is left out. -/
def Node.empty : Node := .scalar .none true ""

/-! ## Directives -/

/-- The handles that need no directive. -/
def standardHandles : List (String × String) := [("!", "!"), ("!!", "tag:yaml.org,2002:")]

/-- The directives in front of a document: the version was given, and what handles stand for. -/
def directives (versioned : Bool) (handles : List (String × String)) :
    List Token → Except Fault (List (String × String) × List Token)
  | .directive d :: r =>
    match d with
    | .version major =>
      if versioned || major != 1 then .error .malformed else directives true handles r
    | .handle name full =>
      if (handles.lookup name).isSome then .error .malformed
      else directives versioned ((name, full) :: handles) r
    | .other => directives versioned handles r
  | ts => .ok (handles ++ standardHandles, ts)

/-! ## Nodes -/

/-- A tag in full. -/
def fullTag (handles : List (String × String)) (handle : Option String) (suffix : String) :
    Except Fault String :=
  match handle with
  | none => .ok suffix
  | some h =>
    match handles.lookup h with
    | some full => .ok (full ++ suffix)
    | none => .error .malformed

/-- The properties in front of a node: an anchor and a tag in any order. -/
def properties (handles : List (String × String)) :
    List Token → Except Fault (Property × List Token)
  | .anchor a :: .tag h t :: r => (fullTag handles h t).map fun t => (⟨some a, some t⟩, r)
  | .anchor a :: r => .ok (⟨some a, none⟩, r)
  | .tag h t :: .anchor a :: r => (fullTag handles h t).map fun t => (⟨some a, some t⟩, r)
  | .tag h t :: r => (fullTag handles h t).map fun t => (⟨none, some t⟩, r)
  | ts => .ok (.none, ts)

/-- Where a node may stand. -/
inductive Position where
  /-- Within brackets. -/
  | flow
  | block
  /-- After a key or a colon of a block, where a list need not stand deeper. -/
  | entry
  deriving DecidableEq

/-- What ends the part of an entry that is left out. -/
def endsPart : Position → List Token → Bool
  | .flow, ts =>
    match ts with
    | .value :: _ | .comma :: _ | .flowListEnd :: _ | .flowMappingEnd :: _ => true
    | _ => false
  | _, ts =>
    match ts with
    | .key :: _ | .value :: _ | .blockEnd :: _ => true
    | _ => false

/-- The tokens after a comma, which stands before all items but the first. -/
def afterComma (first : Bool) : List Token → Option (List Token)
  | .comma :: r => if first then none else some r
  | ts => if first then some ts else none

mutual

/-- A node. The fuel bounds its depth in tokens. -/
def node (handles : List (String × String)) (position : Position) :
    Nat → List Token → Except Fault (Node × List Token)
  | 0, _ => .error .malformed
  | _ + 1, .aliasOf n :: r => .ok (.again n, r)
  | fuel + 1, ts => do
    let (property, ts) ← properties handles ts
    match ts with
    | .scalar plain text :: r => return (.scalar property plain text, r)
    | .flowList :: r =>
      let (xs, r) ← flowItems handles fuel true r
      return (.list property xs, r)
    | .flowMapping :: r =>
      let (es, r) ← flowEntries handles fuel true r
      return (.mapping property es, r)
    | _ =>
      match position, ts with
      | .entry, .item :: _ =>
        let (xs, r) ← blockItems handles fuel ts
        return (.list property xs, r)
      | .block, .blockList :: r | .entry, .blockList :: r =>
        let (xs, r) ← blockItems handles fuel r
        match r with
        | .blockEnd :: r => return (.list property xs, r)
        | _ => .error .malformed
      | .block, .blockMapping :: r | .entry, .blockMapping :: r =>
        let (es, r) ← blockEntries handles fuel r
        return (.mapping property es, r)
      | _, _ =>
        if property.anchor.isSome || property.tag.isSome then
          return (.scalar property (property.tag.all (· == "!")) "", ts)
        else .error .malformed

/-- The items of a list in a block, up to what is no item. -/
def blockItems (handles : List (String × String)) :
    Nat → List Token → Except Fault (List Node × List Token)
  | 0, _ => .error .malformed
  | fuel + 1, ts =>
    match ts with
    | .item :: r => do
      let left := match r with
        | .item :: _ => true
        | _ => endsPart .block r
      let (x, r) ← if left then .ok (Node.empty, r) else node handles .block fuel r
      let (xs, r) ← blockItems handles fuel r
      return (x :: xs, r)
    | ts => .ok ([], ts)

/-- The entries of a mapping in a block, up to and over its end. -/
def blockEntries (handles : List (String × String)) :
    Nat → List Token → Except Fault (List (Node × Node) × List Token)
  | 0, _ => .error .malformed
  | fuel + 1, ts =>
    match ts with
    | .blockEnd :: r => .ok ([], r)
    | .key :: r => do
      let (k, r) ← part handles .entry fuel r
      let (v, r) ← valuePart handles .entry fuel r
      let (es, r) ← blockEntries handles fuel r
      return ((k, v) :: es, r)
    | _ => .error .malformed

/-- A key or a value, which may be left out. -/
def part (handles : List (String × String)) (position : Position) :
    Nat → List Token → Except Fault (Node × List Token)
  | 0, _ => .error .malformed
  | fuel + 1, ts => if endsPart position ts then .ok (.empty, ts) else node handles position fuel ts

/-- A value with its colon, which may be left out. -/
def valuePart (handles : List (String × String)) (position : Position) :
    Nat → List Token → Except Fault (Node × List Token)
  | 0, _ => .error .malformed
  | fuel + 1, ts =>
    match ts with
    | .value :: r => part handles position fuel r
    | ts => .ok (.empty, ts)

/-- The items of a list in brackets, up to and over its end. Before all but the first stands a
comma. An item may be a single entry. -/
def flowItems (handles : List (String × String)) :
    Nat → Bool → List Token → Except Fault (List Node × List Token)
  | 0, _, _ => .error .malformed
  | _ + 1, _, .flowListEnd :: r => .ok ([], r)
  | fuel + 1, first, ts =>
    match afterComma first ts with
    | none => .error .malformed
    | some ts =>
      match ts with
      | .flowListEnd :: r => .ok ([], r)
      | .key :: r => do
        let (k, r) ← part handles .flow fuel r
        let (v, r) ← valuePart handles .flow fuel r
        let (xs, r) ← flowItems handles fuel false r
        return (.mapping .none [(k, v)] :: xs, r)
      | ts => do
        let (x, r) ← node handles .flow fuel ts
        let (xs, r) ← flowItems handles fuel false r
        return (x :: xs, r)

/-- The entries of a mapping in brackets, up to and over its end. A node without a colon is a key
without a value. -/
def flowEntries (handles : List (String × String)) :
    Nat → Bool → List Token → Except Fault (List (Node × Node) × List Token)
  | 0, _, _ => .error .malformed
  | _ + 1, _, .flowMappingEnd :: r => .ok ([], r)
  | fuel + 1, first, ts =>
    match afterComma first ts with
    | none => .error .malformed
    | some ts =>
      match ts with
      | .flowMappingEnd :: r => .ok ([], r)
      | .key :: r => do
        let (k, r) ← part handles .flow fuel r
        let (v, r) ← valuePart handles .flow fuel r
        let (es, r) ← flowEntries handles fuel false r
        return ((k, v) :: es, r)
      | ts => do
        let (k, r) ← node handles .flow fuel ts
        let (es, r) ← flowEntries handles fuel false r
        return ((k, .empty) :: es, r)

end

/-! ## Documents -/

/-- What stands after the start of a document. -/
def content (handles : List (String × String)) (ts : List Token) :
    Except Fault (Node × List Token) :=
  match ts with
  | [] | .directive _ :: _ | .documentStart :: _ | .documentEnd :: _ => .ok (.empty, ts)
  | ts => node handles .block (4 * ts.length + 4) ts

/-- The document of a text, which has at most one. -/
def document (ts : List Token) : Except Fault (Option Node) := do
  let (found, rest) ← match ts with
    | [] => .ok (none, [])
    | .directive _ :: _ | .documentStart :: _ => do
      let (handles, r) ← directives false [] ts
      match r with
      | .documentStart :: r => (content handles r).map fun (n, r) => (some n, r)
      | _ => .error .malformed
    | ts => (node standardHandles .block (4 * ts.length + 4) ts).map fun (n, r) => (some n, r)
  let after := rest.dropWhile fun
    | .documentEnd => true
    | _ => false
  if after.isEmpty then return found else .error .malformed

/-! ## Names of nodes -/

/-- The named nodes so far; one that is not complete yet has no node. -/
abbrev Known := List (String × Option Node)

/-- Gives a name, which must be new. -/
def introduce (known : Known) (anchor : Option String) (n : Option Node) : Except Fault Known :=
  match anchor with
  | none => .ok known
  | some a => if (known.lookup a).isSome then .error .malformed else .ok ((a, n) :: known)

/-- Completes a node that was introduced before. -/
def complete (known : Known) (anchor : Option String) (n : Node) : Known :=
  match anchor with
  | none => known
  | some a => (a, some n) :: known

mutual

/-- The tree with the named nodes in all their places. A node within itself is left empty. -/
def expand (known : Known) : Node → Except Fault (Node × Known)
  | .again a =>
    match known.lookup a with
    | none => .error .malformed
    | some n => .ok (n.getD (.list .none []), known)
  | .scalar p plain text =>
    (introduce known p.anchor (some (.scalar p plain text))).map fun known =>
      (.scalar p plain text, known)
  | .list p xs => do
    let known ← introduce known p.anchor none
    let (xs, known) ← expandItems known xs
    return (.list p xs, complete known p.anchor (.list p xs))
  | .mapping p es => do
    let known ← introduce known p.anchor none
    let (es, known) ← expandEntries known es
    return (.mapping p es, complete known p.anchor (.mapping p es))

def expandItems (known : Known) : List Node → Except Fault (List Node × Known)
  | [] => .ok ([], known)
  | x :: r => do
    let (x, known) ← expand known x
    let (r, known) ← expandItems known r
    return (x :: r, known)

def expandEntries (known : Known) : List (Node × Node) → Except Fault (List (Node × Node) × Known)
  | [] => .ok ([], known)
  | (k, v) :: r => do
    let (k, known) ← expand known k
    let (v, known) ← expand known v
    let (r, known) ← expandEntries known r
    return ((k, v) :: r, known)

end

/-- The tree of a text, if it has a document. -/
def Node.parse (s : List Char) : Except Fault (Option Node) := do
  match ← document (← Token.cut s) with
  | none => return none
  | some n => (expand [] n).map fun (n, _) => some n

end TagLedger.Yaml
