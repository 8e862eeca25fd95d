import TagLedger.Config.Basic
import TagLedger.Failure
import TagLedger.Json.Parser
import TagLedger.Store.Root

/-!
# Asking a model

A client knows an endpoint and the protocol it speaks. It makes requests from messages, and reads a
reply out of the answer. Whatever the answer is, reading it gives a reply or a failure.
-/

namespace TagLedger.Completion

open Schema

/-! ## Clients -/

structure Client where
  provider : Provider
  baseUrl : String
  model : String
  timeout : Json
  temperature : Json
  maxTokens : Json
  apiKey : Option String
  /-- Parameters that go into every request. -/
  extra : List (String × Json)

def Client.make (provider : Provider) (baseUrl model : String)
    (timeout temperature maxTokens : Json) (apiKey : Option String)
    (extra : List (String × Json)) : Client :=
  ⟨provider, withoutSlashes baseUrl, model, timeout, temperature, maxTokens, apiKey, extra⟩

/-- What the client goes by. -/
def Client.document (c : Client) : Json :=
  .obj [("base_url", .str c.baseUrl), ("model", .str c.model), ("timeout", c.timeout),
    ("temperature", c.temperature), ("max_tokens", c.maxTokens),
    ("api_key", Json.ofOption .str c.apiKey), ("extra_params", .obj c.extra)]

def Client.ofConfig (c : CompletionConfig) : Client :=
  .make c.provider c.baseUrl c.model (.int c.timeoutSeconds) (.float c.temperature)
    (.int c.maxTokens) c.apiKey []

/-- The provider that unchecked settings name, if it is known, and the client that they make. What
they leave out has its default; letter case in the provider's name does not matter. -/
def Client.ofFields (settings : Json) : Option Provider × Client :=
  let std := CompletionConfig.standard
  let field (key : String) (default : Json) : Json := (settings.field? key).getD default
  let words (key default : String) : String :=
    match settings.field? key with
    | some (.str s) => s
    | _ => default
  let provider := Json.find? Provider.named (Text.lower (words "provider" std.provider.text))
  let apiKey := match settings.field? "api_key" with
    | some (.str s) => some s
    | _ => none
  (provider, .make (provider.getD .openai) (words "base_url" std.baseUrl) (words "model" std.model)
    (field "timeout_seconds" (.int std.timeoutSeconds))
    (field "temperature" (.float std.temperature))
    (field "max_response_tokens" (.int std.maxTokens)) apiKey [])

/-- The endpoint is another one than the configured one. -/
def ApiOverride.applies (o : ApiOverride) : Bool := o.custom && o.baseUrl != ""

/-- The value of a parameter taken out of the others. -/
def takeParam (params : List (String × Json)) (key : String) (default : Json) : Json :=
  (Json.find? params key).getD default

/-- The client for analyses: another endpoint, if one is set, wins over the configured one and
speaks the compatible protocol. -/
def Client.forAnalysis (base : Client) (o : ApiOverride) : Client :=
  if ApiOverride.applies o then
    let others := o.params.filter fun p => p.1 != "temperature" && p.1 != "max_tokens"
    .make .openai o.baseUrl (if o.model = "" then base.model else o.model) base.timeout
      (takeParam o.params "temperature" base.temperature)
      (takeParam o.params "max_tokens" base.maxTokens)
      (if o.apiKey = "" then none else some o.apiKey) others
  else base

/-! ## Requests -/

structure Request where
  method : String
  url : String
  authorization : Option String
  body : Option Json

def Request.document (r : Request) : Json :=
  .obj [("method", .str r.method), ("url", .str r.url),
    ("authorization", Json.ofOption .str r.authorization), ("json", r.body.getD .null)]

/-- What a single call asks for beside its messages; what is absent is the client's. -/
structure Wish where
  temperature : Option Json
  maxTokens : Option Json
  model : Option String

def Wish.none : Wish := ⟨.none, .none, .none⟩

namespace Client

def authorization (c : Client) : Option String :=
  match c.apiKey with
  | some k => if k = "" then none else some ("Bearer " ++ k)
  | none => none

/-- The address under which the compatible protocol is served. -/
def root (c : Client) : String :=
  if "/v1".toList.isSuffixOf c.baseUrl.toList then c.baseUrl else c.baseUrl ++ "/v1"

def modelFor (c : Client) (w : Wish) : String := w.model.getD c.model

/-- The request that has a model go on after messages. -/
def request (c : Client) (messages : Json) (w : Wish) : Request :=
  let temperature := w.temperature.getD c.temperature
  let maxTokens := w.maxTokens.getD c.maxTokens
  let common := [("model", Json.str (c.modelFor w)), ("messages", messages),
    ("stream", .bool false)]
  let set (fields : List (String × Json)) (f : String × Json) := Json.insert fields f.1 f.2
  match c.provider with
  | .ollama =>
    let options := [("temperature", temperature), ("num_predict", maxTokens)].foldl set c.extra
    ⟨"POST", c.baseUrl ++ "/api/chat", c.authorization,
      some (.obj (common ++ [("options", .obj options)]))⟩
  | .openai =>
    let fields := common ++ [("temperature", temperature), ("max_tokens", maxTokens)]
    ⟨"POST", c.root ++ "/chat/completions", c.authorization, some (.obj (fields.foldl set c.extra))⟩

/-- The request that finds out whether the endpoint is there. -/
def healthRequest (c : Client) : Request :=
  let url := match c.provider with
    | .ollama => c.baseUrl ++ "/api/tags"
    | .openai => c.root ++ "/models"
  ⟨"GET", url, c.authorization, none⟩

end Client

def message (role content : String) : Json :=
  .obj [("role", .str role), ("content", .str content)]

/-- The messages of a single prompt. -/
def promptMessages (system : Option String) (prompt : String) : Json :=
  let first := match system with
    | some s => if s = "" then [] else [message "system" s]
    | none => []
  .arr (first ++ [message "user" prompt])

/-! ## Answers -/

inductive Body where
  | json (j : Json)
  | text (s : String)

inductive Answer where
  | response (status : Int) (body : Body)
  /-- There was no connection. -/
  | broken (text : String)

structure Reply where
  content : String
  model : String
  finishReason : Option String
  usage : List (String × Json)

def Reply.document (r : Reply) : Json :=
  .obj [("content", .str r.content), ("model", .str r.model),
    ("finish_reason", Json.ofOption .str r.finishReason), ("usage", .obj r.usage)]

/-- The phrases of statuses that are no success. -/
def reasons : List (Int × String) :=
  [(100, "Continue"), (101, "Switching Protocols"), (102, "Processing"), (103, "Early Hints"),
   (300, "Multiple Choices"), (301, "Moved Permanently"), (302, "Found"), (303, "See Other"),
   (304, "Not Modified"), (305, "Use Proxy"), (307, "Temporary Redirect"),
   (308, "Permanent Redirect"), (400, "Bad Request"), (401, "Unauthorized"),
   (402, "Payment Required"), (403, "Forbidden"), (404, "Not Found"), (405, "Method Not Allowed"),
   (406, "Not Acceptable"), (407, "Proxy Authentication Required"), (408, "Request Timeout"),
   (409, "Conflict"), (410, "Gone"), (411, "Length Required"), (412, "Precondition Failed"),
   (413, "Request Entity Too Large"), (414, "Request-URI Too Long"),
   (415, "Unsupported Media Type"), (416, "Requested Range Not Satisfiable"),
   (417, "Expectation Failed"), (418, "I'm a teapot"), (421, "Misdirected Request"),
   (422, "Unprocessable Entity"), (423, "Locked"), (424, "Failed Dependency"),
   (425, "Too Early"), (426, "Upgrade Required"), (428, "Precondition Required"),
   (429, "Too Many Requests"), (431, "Request Header Fields Too Large"),
   (451, "Unavailable For Legal Reasons"), (500, "Internal Server Error"),
   (501, "Not Implemented"), (502, "Bad Gateway"), (503, "Service Unavailable"),
   (504, "Gateway Timeout"), (505, "HTTP Version Not Supported"),
   (506, "Variant Also Negotiates"), (507, "Insufficient Storage"), (508, "Loop Detected"),
   (510, "Not Extended"), (511, "Network Authentication Required")]

def reason (status : Int) : String := ((reasons.find? (·.1 == status)).map (·.2)).getD ""

def Body.read (sender : String) : Body → Except Failure Json
  | .json j => .ok j
  | .text s =>
    let cs := match s.toList with
      | c :: r => if c.toNat = 0xFEFF then r else c :: r
      | [] => []
    match Json.parse cs with
    | .ok j => .ok j
    | .error _ => .error (.completion (.badReply sender))

/-- The document in an answer. -/
def Answer.read (sender url : String) : Answer → Except Failure Json
  | .broken text => .error (.completion (.unreachable text))
  | .response status body =>
    if 200 ≤ status ∧ status < 300 then body.read sender
    else .error (.completion (.status status (reason status) url))

/-! ## Replies -/

def field (j : Json) (key : String) : Except Failure (Option Json) :=
  match j with
  | .obj fields => .ok (Json.find? fields key)
  | _ => .error .noFields

/-- The value if it counts as present. -/
def truthyOr (j : Option Json) (default : Json) : Json := Migration.orElse (j.getD .null) default

def checkReply (content model finish usage : Json) : Except Failure Reply :=
  let ctx : Context := ⟨0, false⟩
  let at_ {α : Type} (key : String) (d : Decoder α) (j : Json) : Checked α :=
    (d ctx j).below (.key key)
  match Reply.mk <$> at_ "content" text content <*> at_ "model" text model
      <*> at_ "finish_reason" (nullable text) finish <*> at_ "usage" anyMapping usage with
  | .valid r => .ok r
  | .invalid is => .error (.invalid is)

/-- Nanoseconds as seconds. -/
def seconds (j : Json) : Except Failure Binary64 := do
  let x ← match j with
    | .float x => pure x
    | .int n =>
      match Binary64.ofInt n with
      | .finite x => pure (.finite x)
      | _ => throw .tooLarge
    | .bool b => pure (Binary64.ofNat (if b then 1 else 0))
    | _ => throw .wrongKind
  return x.div (Binary64.ofNat 1000000000)

def readOllama (model : String) (j : Json) : Except Failure Reply := do
  let message := (← field j "message").getD (.obj [])
  let content := (← field message "content").getD (.str "")
  match content with
  | .str _ => pure ()
  | _ => throw .noFields
  let total ← seconds ((← field j "total_duration").getD (.int 0))
  let get (key : String) (default : Json) : Except Failure Json :=
    (field j key).map (·.getD default)
  checkReply content (← get "model" (.str model)) (← get "done_reason" .null)
    (.obj [("prompt_tokens", ← get "prompt_eval_count" (.int 0)),
      ("completion_tokens", ← get "eval_count" (.int 0)), ("total_duration_s", .float total)])

/-- The first of some choices. -/
def firstChoice : Json → Except Failure Json
  | .arr (c :: _) => .ok c
  | .str s => .ok (.str (String.ofList (s.toList.take 1)))
  | .obj _ => .error .unknownField
  | _ => .error .wrongKind

def readCompatible (model : String) (j : Json) : Except Failure Reply := do
  let choice ← firstChoice (truthyOr (← field j "choices") (.arr [.obj []]))
  let message := truthyOr (← field choice "message") (.obj [])
  let content := truthyOr (← field message "content") (.str "")
  checkReply content ((← field j "model").getD (.str model))
    ((← field choice "finish_reason").getD .null) (truthyOr (← field j "usage") (.obj []))

/-- Reads the reply out of an answer to a request. -/
def Client.read (c : Client) (w : Wish) (r : Request) (a : Answer) : Except Failure Reply :=
  match c.provider with
  | .ollama => (a.read "Ollama" r.url).bind (readOllama (c.modelFor w))
  | .openai => (a.read "completion endpoint" r.url).bind (readCompatible (c.modelFor w))

/-- Whether an answer shows that the endpoint is there. -/
def Answer.isHealthy : Answer → Bool
  | .response status _ => status == 200
  | .broken _ => false

/-! ## A row of answers -/

/-- Answers in the order of the requests, and the requests that were made, the latest first. -/
structure Line where
  answers : List Answer
  requests : List Request

namespace Line

/-- The next answer; when none is left there is no connection. -/
def send (l : Line) (r : Request) : Answer × Line :=
  match l.answers with
  | a :: rest => (a, ⟨rest, r :: l.requests⟩)
  | [] => (.broken "no scripted response", ⟨[], r :: l.requests⟩)

/-- Asks a client to go on after messages. -/
def ask (l : Line) (c : Client) (messages : Json) (w : Wish) : Except Failure Reply × Line :=
  let r := c.request messages w
  let (a, l) := l.send r
  (c.read w r a, l)

def health (l : Line) (c : Client) : Bool × Line :=
  let (a, l) := l.send c.healthRequest
  (a.isHealthy, l)

end Line

end TagLedger.Completion
