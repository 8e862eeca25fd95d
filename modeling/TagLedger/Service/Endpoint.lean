import TagLedger.Service.Problem

/-!
# Endpoints

An endpoint has a method and a path whose parts are fixed words or parameters. The first endpoint
that fits a request serves it. Its parameters and body are checked before anything is done, and all
their issues are told together.

    (e.params? path).isSome for every path that `e.path` was filled in for
-/

namespace TagLedger.Service

open Schema

structure Request where
  method : String
  /-- With percent signs. -/
  path : String
  body : Option String

/-! ## Paths -/

inductive Part where
  | word (w : String)
  | param
  deriving DecidableEq

/-- The words between the slashes of a path. -/
def wordsOf (path : String) : List String :=
  (Template.splitAt '/' path.toList).map String.ofList

/-- Reads the form of a path, in which a star stands for a parameter. -/
def pathOf (form : String) : List Part :=
  (wordsOf form).map fun w => if w = "*" then .param else .word w

/-- The parameters of a path that has a form; a line feed after its last word does no harm. -/
def match? : List Part → List String → Option (List String)
  | [], [] => some []
  | [.word w], [s] => if s = w || s = w ++ "\n" then some [] else none
  | .word w :: f, s :: p => if s = w then match? f p else none
  | .param :: f, s :: p => if s = "" then none else (match? f p).map (s :: ·)
  | _, _ => none

/-! ## Arguments -/

/-- The body of a request. -/
inductive Body where
  | absent
  | document (j : Json)

/-- What a request brings for an endpoint. -/
structure Arguments where
  params : List String
  body : Body
  context : Context

/-- A parameter of the path by its position. -/
def Arguments.param (a : Arguments) (i : Nat) : String := (a.params[i]?).getD ""

/-- An integer in the path. -/
def Arguments.number (a : Arguments) (i : Nat) (name : String) : Checked Int :=
  ((integer a.context (.str (a.param i))).below (.key name)).below (.key "path")

def Arguments.read {α : Type} (a : Arguments) (d : Decoder α) : Checked α :=
  match a.body with
  | .absent => .invalid [⟨[.key "body"], .missing⟩]
  | .document j => (d a.context j).below (.key "body")

/-! ## Endpoints -/

structure Endpoint where
  method : String
  path : List Part
  /-- The status of success. -/
  status : Nat
  takesBody : Bool
  serve : Arguments → Checked (Serving Json)

/-- An endpoint whose parameters are texts and whose body is not looked at. -/
def plain (method path : String) (serve : Arguments → Serving Json) : Endpoint :=
  ⟨method, pathOf path, 200, false, fun a => .valid (serve a)⟩

/-- The same with more to check. -/
def checked (method path : String) (serve : Arguments → Checked (Serving Json)) : Endpoint :=
  ⟨method, pathOf path, 200, false, serve⟩

/-- An endpoint with a body and more to check. -/
def taking (method path : String) (serve : Arguments → Checked (Serving Json)) : Endpoint :=
  ⟨method, pathOf path, 200, true, serve⟩

/-- An endpoint with a body, which is read together with what is done about it. -/
def reading (method path : String) (serve : Arguments → Decoder (Serving Json)) : Endpoint :=
  taking method path fun a => a.read (serve a)

/-- The endpoint makes something new. -/
def Endpoint.creates (e : Endpoint) : Endpoint := { e with status := 201 }

/-! ## Bodies -/

/-- What the body of a request is. -/
def readBody (text : Option String) : Except Response Body :=
  match text with
  | none => .ok .absent
  | some t =>
    if t = "" then .ok .absent
    else
      let cs := match t.toList with
        | c :: r => if c.toNat = 0xFEFF then r else c :: r
        | [] => []
      match Json.parse cs with
      | .ok j => .ok (.document j)
      | .error (.malformed rest) =>
        .error (unfit [⟨[.key "body", .index (cs.length - rest.length)], .malformed⟩])
      | .error .numeralTooLong => .error Problem.badBody.response

/-! ## Routing -/

/-- What becomes of a request for a path. -/
inductive Route where
  | found (e : Endpoint) (params : List String)
  | otherMethod
  /-- The path without its last slashes, or with one, has an endpoint. -/
  | elsewhere
  | nowhere

def matchesPath (path : List String) (e : Endpoint) : Bool := (match? e.path path).isSome

/-- The path with a slash at its end taken away or added. -/
def otherPath (path : String) : String :=
  if "/".toList.isSuffixOf path.toList then withoutSlashes path else path ++ "/"

def route (es : List Endpoint) (method path : String) : Route :=
  let parts := wordsOf path
  match es.filter (matchesPath parts) with
  | [] =>
    if path ≠ "/" && es.any (matchesPath (wordsOf (otherPath path))) then .elsewhere
    else .nowhere
  | fits =>
    match fits.find? (·.method == method) with
    | some e => .found e ((match? e.path parts).getD [])
    | none => .otherMethod

/-- Serves a request. -/
def handle (es : List Endpoint) (r : Request) : Activity Session Response := do
  match route es r.method (Text.Percent.decode r.path) with
  | .nowhere => return Problem.noEndpoint.response
  | .otherMethod => return Problem.noMethod.response
  | .elsewhere => return ⟨307, .text ""⟩
  | .found e params =>
    match if e.takesBody then readBody r.body else .ok .absent with
    | .error response => return response
    | .ok body =>
      let now ← Session.stored Storage.now
      match e.serve ⟨params, body, ⟨now, true⟩⟩ with
      | .invalid is => return unfit is
      | .valid x => respond e.status x

end TagLedger.Service
