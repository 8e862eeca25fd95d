import TagLedger.Proofs.Labelling
import TagLedger.Proofs.Misshapen

/-!
# What a model answers

Whoever asks a model gets a reply, or is told that the model cannot be asked, unless the answer is a
document that is not made as a reply is: its parts are used before anybody looks at what they are.
The first part that is of another kind says how asking fails. An analysis reports a model that
cannot be asked, and fails as asking does otherwise.

    asking fails otherwise  ↔  the answer holds an odd document         (Client.read_error)
    both, of every client and every analysis                               (reported_or_odd)
-/

namespace TagLedger

open Schema

namespace Completion

open Migration (IsObject valueOr isObject_obj)

variable {model : String} {fields : List (String × Json)} {j : Json} {e : Failure}

/-! ## Parts of a reply -/

/-- The value under a key, or what stands for a missing one. -/
def given (fields : List (String × Json)) (key : String) (default : Json) : Json :=
  (Json.find? fields key).getD default

def IsText (j : Json) : Prop := ∃ s, j = .str s

instance : DecidablePred IsText
  | .str s => isTrue ⟨s, rfl⟩
  | .null | .bool _ | .int _ | .float _ | .arr _ | .obj _ => isFalse nofun

instance : DecidablePred IsObject
  | .obj fields => isTrue ⟨fields, rfl⟩
  | .null | .bool _ | .int _ | .float _ | .arr _ | .str _ => isFalse nofun

/-- A time that cannot be counted in seconds. -/
inductive Untimed : Json → Failure → Prop where
  | null : Untimed .null .wrongKind
  | text (s : String) : Untimed (.str s) .wrongKind
  | list (items : List Json) : Untimed (.arr items) .wrongKind
  | object (fields : List (String × Json)) : Untimed (.obj fields) .wrongKind
  | huge {n : Int} : (∀ x, Binary64.ofInt n ≠ .finite x) → Untimed (.int n) .tooLarge

/-- The issue of a value that is not of the kind asked for. -/
def unfit (key : String) (kind : IssueKind) (fits : Bool) : List Issue :=
  if fits then [] else [⟨[.key key], kind⟩]

/-- The issues of the parts that a reply is made of. -/
def replyIssues (content model finish usage : Json) : List Issue :=
  unfit "content" .notText (IsText content) ++ unfit "model" .notText (IsText model) ++
    unfit "finish_reason" .notText (finish matches .null || IsText finish) ++
    unfit "usage" .notMapping (IsObject usage)

/-- What keeps a document from being a message, in the order in which its parts are used. -/
inductive OddMessage (model : String) : Json → Failure → Prop where
  | document {j : Json} : ¬ IsObject j → OddMessage model j .noFields
  | message {fields : List (String × Json)} :
      ¬ IsObject (given fields "message" (.obj [])) → OddMessage model (.obj fields) .noFields
  | content {fields message : List (String × Json)} :
      given fields "message" (.obj []) = .obj message →
      ¬ IsText (given message "content" (.str "")) → OddMessage model (.obj fields) .noFields
  | duration {fields message : List (String × Json)} {e : Failure} :
      given fields "message" (.obj []) = .obj message →
      IsText (given message "content" (.str "")) →
      Untimed (given fields "total_duration" (.int 0)) e → OddMessage model (.obj fields) e
  | parts {fields message : List (String × Json)} {issues : List Issue} :
      given fields "message" (.obj []) = .obj message →
      IsText (given message "content" (.str "")) →
      (∀ e, ¬ Untimed (given fields "total_duration" (.int 0)) e) →
      replyIssues (given message "content" (.str "")) (given fields "model" (.str model))
        (given fields "done_reason" .null) (.obj []) = issues → issues ≠ [] →
      OddMessage model (.obj fields) (.invalid issues)

/-- What keeps a document from being a choice of replies, in the order in which its parts are
used. -/
inductive OddChoice (model : String) : Json → Failure → Prop where
  | document {j : Json} : ¬ IsObject j → OddChoice model j .noFields
  | text {fields : List (String × Json)} :
      IsText (valueOr fields "choices" (.arr [.obj []])) → OddChoice model (.obj fields) .noFields
  | object {fields : List (String × Json)} :
      IsObject (valueOr fields "choices" (.arr [.obj []])) →
      OddChoice model (.obj fields) .unknownField
  | scalar {fields : List (String × Json)} :
      ¬ IsText (valueOr fields "choices" (.arr [.obj []])) →
      ¬ IsObject (valueOr fields "choices" (.arr [.obj []])) →
      (∀ items, valueOr fields "choices" (.arr [.obj []]) ≠ .arr items) →
      OddChoice model (.obj fields) .wrongKind
  | choice {fields : List (String × Json)} {first : Json} {rest : List Json} :
      valueOr fields "choices" (.arr [.obj []]) = .arr (first :: rest) → ¬ IsObject first →
      OddChoice model (.obj fields) .noFields
  | message {fields first : List (String × Json)} {rest : List Json} :
      valueOr fields "choices" (.arr [.obj []]) = .arr (.obj first :: rest) →
      ¬ IsObject (valueOr first "message" (.obj [])) → OddChoice model (.obj fields) .noFields
  | parts {fields first message : List (String × Json)} {rest : List Json} {issues : List Issue} :
      valueOr fields "choices" (.arr [.obj []]) = .arr (.obj first :: rest) →
      valueOr first "message" (.obj []) = .obj message →
      replyIssues (valueOr message "content" (.str "")) (given fields "model" (.str model))
        (given first "finish_reason" .null) (valueOr fields "usage" (.obj [])) = issues →
      issues ≠ [] → OddChoice model (.obj fields) (.invalid issues)

/-- A document that the client cannot read as a reply. -/
def Client.Odd (c : Client) (w : Wish) (j : Json) (e : Failure) : Prop :=
  match c.provider with
  | .ollama => OddMessage (c.modelFor w) j e
  | .openai => OddChoice (c.modelFor w) j e

/-! ## What the parts do -/

theorem field_obj (fields : List (String × Json)) (key : String) :
    field (.obj fields) key = .ok (Json.find? fields key) := rfl

theorem field_error (h : ¬ IsObject j) (key : String) : field j key = .error .noFields := by
  cases j with
  | obj fields => exact absurd (isObject_obj fields) h
  | _ => rfl

theorem seconds_int (n : Int) : seconds (.int n) = match Binary64.ofInt n with
    | .finite x => .ok ((Binary64.finite x).div (Binary64.ofNat 1000000000))
    | _ => .error .tooLarge := by
  unfold seconds
  dsimp only
  cases Binary64.ofInt n <;> rfl

theorem seconds_error : seconds j = .error e ↔ Untimed j e := by
  constructor
  · intro h
    cases j with
    | null => cases h; exact .null
    | str s => cases h; exact .text s
    | arr items => cases h; exact .list items
    | obj fields => cases h; exact .object fields
    | int n =>
      rw [seconds_int] at h
      split at h
      · cases h
      · next hn =>
        cases h
        exact .huge hn
    | _ => cases h
  · rintro (_ | s | items | fields | @⟨n, hn⟩)
    case huge =>
      rw [seconds_int]
      split
      · next x hx => exact absurd hx (hn x)
      · rfl
    all_goals rfl

/-- The parts raise these issues, and none if they are valid. -/
def Raises {α : Type} (x : Checked α) (issues : List Issue) : Prop :=
  (∃ a, x = .valid a) ∧ issues = [] ∨ x = .invalid issues ∧ issues ≠ []

namespace Raises

variable {α β : Type}

theorem map {x : Checked α} {issues : List Issue} (h : Raises x issues) (f : α → β) :
    Raises (f <$> x) issues := by
  rcases h with ⟨⟨a, rfl⟩, rfl⟩ | ⟨rfl, hne⟩
  · exact .inl ⟨⟨f a, rfl⟩, rfl⟩
  · exact .inr ⟨rfl, hne⟩

theorem seq {f : Checked (α → β)} {x : Checked α} {is js : List Issue} (hf : Raises f is)
    (hx : Raises x js) : Raises (f <*> x) (is ++ js) := by
  rcases hf with ⟨⟨g, rfl⟩, rfl⟩ | ⟨rfl, his⟩ <;> rcases hx with ⟨⟨a, rfl⟩, rfl⟩ | ⟨rfl, hjs⟩
  · exact .inl ⟨⟨g a, rfl⟩, rfl⟩
  · exact .inr ⟨rfl, hjs⟩
  · rw [List.append_nil]
    exact .inr ⟨rfl, his⟩
  · exact .inr ⟨rfl, List.append_ne_nil_of_left_ne_nil his js⟩

theorem text (ctx : Context) (key : String) (j : Json) :
    Raises ((Schema.text ctx j).below (.key key)) (unfit key .notText (IsText j)) := by
  cases j with
  | str s => exact .inl ⟨⟨s, rfl⟩, rfl⟩
  | _ => exact .inr ⟨rfl, List.cons_ne_nil _ _⟩

theorem nullableText (ctx : Context) (key : String) (j : Json) :
    Raises ((nullable Schema.text ctx j).below (.key key))
      (unfit key .notText (j matches .null || IsText j)) := by
  cases j with
  | null => exact .inl ⟨⟨none, rfl⟩, rfl⟩
  | str s => exact .inl ⟨⟨some s, rfl⟩, rfl⟩
  | _ => exact .inr ⟨rfl, List.cons_ne_nil _ _⟩

theorem anyMapping (ctx : Context) (key : String) (j : Json) :
    Raises ((Schema.anyMapping ctx j).below (.key key)) (unfit key .notMapping (IsObject j)) := by
  cases j with
  | obj fields => exact .inl ⟨⟨fields, rfl⟩, rfl⟩
  | _ => exact .inr ⟨rfl, List.cons_ne_nil _ _⟩

end Raises

theorem checkReply_error {content finish usage modelName : Json} :
    checkReply content modelName finish usage = .error e ↔
      ∃ issues, replyIssues content modelName finish usage = issues ∧ issues ≠ [] ∧
        e = .invalid issues := by
  let ctx : Context := ⟨0, false⟩
  have hraises := ((((Raises.text ctx "content" content).map Reply.mk).seq
    (.text ctx "model" modelName)).seq (.nullableText ctx "finish_reason" finish)).seq
    (.anyMapping ctx "usage" usage)
  unfold checkReply
  dsimp only
  rcases hraises with ⟨⟨r, hr⟩, hnil⟩ | ⟨hr, hne⟩ <;> rw [hr]
  · exact ⟨nofun, fun ⟨_, rfl, hne, _⟩ => absurd hnil hne⟩
  · refine ⟨fun h => ⟨_, rfl, hne, (Except.error.inj h).symm⟩, ?_⟩
    rintro ⟨_, rfl, -, rfl⟩
    rfl

/-! ## Reading a reply -/

section Message

variable {message : List (String × Json)} {content : String}

theorem readOllama_bare (h : ¬ IsObject (given fields "message" (.obj []))) :
    readOllama model (.obj fields) = .error .noFields := by
  change (field (given fields "message" (.obj [])) "content").bind _ = _
  rw [field_error h]
  rfl

variable (hmessage : given fields "message" (.obj []) = .obj message)

include hmessage

theorem readOllama_mute (h : ¬ IsText (given message "content" (.str ""))) :
    readOllama model (.obj fields) = .error .noFields := by
  change (field (given fields "message" (.obj [])) "content").bind _ = _
  rw [hmessage, field_obj]
  dsimp only [Except.bind]
  change ¬ IsText ((Json.find? message "content").getD (.str "")) at h
  generalize (Json.find? message "content").getD (.str "") = content at h ⊢
  cases content with
  | str s => exact absurd ⟨s, rfl⟩ h
  | _ => rfl

/-- The message has a text, and what else there is to a reply is looked at. -/
theorem readOllama_told (hcontent : given message "content" (.str "") = .str content) :
    readOllama model (.obj fields) =
      (seconds (given fields "total_duration" (.int 0))).bind fun total =>
        checkReply (.str content) (given fields "model" (.str model))
          (given fields "done_reason" .null)
          (.obj [("prompt_tokens", given fields "prompt_eval_count" (.int 0)),
            ("completion_tokens", given fields "eval_count" (.int 0)),
            ("total_duration_s", .float total)]) := by
  change (field (given fields "message" (.obj [])) "content").bind _ = _
  rw [hmessage, field_obj]
  dsimp only [Except.bind]
  rw [show (Json.find? message "content").getD (.str "") = .str content from hcontent]
  rfl

end Message

theorem OddMessage.of_error (h : readOllama model j = .error e) : OddMessage model j e := by
  by_cases hj : IsObject j
  case neg =>
    unfold readOllama at h
    rw [field_error hj] at h
    cases h
    exact .document hj
  obtain ⟨fields, rfl⟩ := hj
  by_cases hmessage : IsObject (given fields "message" (.obj []))
  case neg =>
    rw [readOllama_bare hmessage] at h
    cases h
    exact .message hmessage
  obtain ⟨message, hmessage⟩ := hmessage
  by_cases htext : IsText (given message "content" (.str ""))
  case neg =>
    rw [readOllama_mute hmessage htext] at h
    cases h
    exact .content hmessage htext
  obtain ⟨content, hcontent⟩ := htext
  rw [readOllama_told hmessage hcontent] at h
  rcases bind_eq_error.mp h with h | ⟨total, htotal, h⟩
  · exact .duration hmessage ⟨content, hcontent⟩ (seconds_error.mp h)
  · obtain ⟨issues, hissues, hne, rfl⟩ := checkReply_error.mp h
    refine .parts hmessage ⟨content, hcontent⟩ (fun e he => ?_) (hcontent ▸ hissues) hne
    rw [seconds_error.mpr he] at htotal
    cases htotal

theorem OddMessage.error (h : OddMessage model j e) : readOllama model j = .error e := by
  cases h with
  | document hj =>
    unfold readOllama
    rw [field_error hj]
    rfl
  | message hmessage => exact readOllama_bare hmessage
  | content hmessage hmute => exact readOllama_mute hmessage hmute
  | duration hmessage htext htime =>
    obtain ⟨content, hcontent⟩ := htext
    rw [readOllama_told hmessage hcontent, seconds_error.mpr htime]
    rfl
  | parts hmessage htext htime hissues hne =>
    obtain ⟨content, hcontent⟩ := htext
    obtain ⟨total, htotal⟩ : ∃ total, seconds (given _ "total_duration" (.int 0)) = .ok total :=
      not_fails_iff.mp fun ⟨e, he⟩ => htime e (seconds_error.mp he)
    rw [readOllama_told hmessage hcontent, htotal]
    exact checkReply_error.mpr ⟨_, hcontent ▸ hissues, hne, rfl⟩

section Choice

variable {first message : List (String × Json)} {rest : List Json}

/-- The choices of a document, one without parts if it has none. -/
theorem readCompatible_obj (model : String) (fields : List (String × Json)) :
    readCompatible model (.obj fields) =
      (firstChoice (valueOr fields "choices" (.arr [.obj []]))).bind fun choice =>
        (field choice "message").bind fun message =>
          (field (truthyOr message (.obj [])) "content").bind fun content =>
            (field choice "finish_reason").bind fun finish =>
              checkReply (truthyOr content (.str "")) (given fields "model" (.str model))
                (finish.getD .null) (valueOr fields "usage" (.obj [])) := rfl

theorem choices_ne_nil {items : List Json}
    (h : valueOr fields "choices" (.arr [.obj []]) = .arr items) : items ≠ [] := by
  rintro rfl
  unfold valueOr Migration.orElse at h
  split at h
  · next htruthy =>
    rw [h] at htruthy
    cases htruthy
  · cases h

theorem readCompatible_blunt (hchoice : valueOr fields "choices" (.arr [.obj []]) =
      .arr (.obj first :: rest)) (h : ¬ IsObject (valueOr first "message" (.obj []))) :
    readCompatible model (.obj fields) = .error .noFields := by
  rw [readCompatible_obj, hchoice]
  change (field (valueOr first "message" (.obj [])) "content").bind _ = _
  rw [field_error h]
  rfl

theorem readCompatible_told (hchoice : valueOr fields "choices" (.arr [.obj []]) =
      .arr (.obj first :: rest)) (hmessage : valueOr first "message" (.obj []) = .obj message) :
    readCompatible model (.obj fields) = checkReply (valueOr message "content" (.str ""))
      (given fields "model" (.str model)) (given first "finish_reason" .null)
      (valueOr fields "usage" (.obj [])) := by
  rw [readCompatible_obj, hchoice]
  change (field (valueOr first "message" (.obj [])) "content").bind _ = _
  rw [hmessage]
  rfl

end Choice

/-- The first of a list of choices, and what is in it, is used as it is. -/
theorem OddChoice.of_listed {items : List Json}
    (hchoices : valueOr fields "choices" (.arr [.obj []]) = .arr items)
    (h : readCompatible model (.obj fields) = .error e) : OddChoice model (.obj fields) e := by
  obtain ⟨first, rest, rfl⟩ := List.exists_cons_of_ne_nil (choices_ne_nil hchoices)
  by_cases hfirst : IsObject first
  case neg =>
    rw [readCompatible_obj, hchoices] at h
    change (field first "message").bind _ = _ at h
    rw [field_error hfirst] at h
    cases h
    exact .choice hchoices hfirst
  obtain ⟨first, rfl⟩ := hfirst
  by_cases hmessage : IsObject (valueOr first "message" (.obj []))
  case neg =>
    rw [readCompatible_blunt hchoices hmessage] at h
    cases h
    exact .message hchoices hmessage
  obtain ⟨message, hmessage⟩ := hmessage
  rw [readCompatible_told hchoices hmessage] at h
  obtain ⟨issues, hissues, hne, rfl⟩ := checkReply_error.mp h
  exact .parts hchoices hmessage hissues hne

theorem OddChoice.of_error (h : readCompatible model j = .error e) : OddChoice model j e := by
  by_cases hj : IsObject j
  case neg =>
    unfold readCompatible at h
    rw [field_error hj] at h
    cases h
    exact .document hj
  obtain ⟨fields, rfl⟩ := hj
  cases hchoices : valueOr fields "choices" (.arr [.obj []]) with
  | arr items => exact .of_listed hchoices h
  | str s =>
    rw [readCompatible_obj, hchoices] at h
    cases h
    exact .text ⟨s, hchoices⟩
  | obj parts =>
    rw [readCompatible_obj, hchoices] at h
    cases h
    exact .object ⟨parts, hchoices⟩
  | _ =>
    rw [readCompatible_obj, hchoices] at h
    cases h
    refine .scalar ?_ ?_ ?_ <;> rw [hchoices] <;> nofun

theorem OddChoice.error (h : OddChoice model j e) : readCompatible model j = .error e := by
  cases h with
  | document hj =>
    unfold readCompatible
    rw [field_error hj]
    rfl
  | text htext =>
    obtain ⟨s, htext⟩ := htext
    rw [readCompatible_obj, htext]
    rfl
  | object hobject =>
    obtain ⟨parts, hobject⟩ := hobject
    rw [readCompatible_obj, hobject]
    rfl
  | scalar htext hobject hlist =>
    rw [readCompatible_obj]
    generalize valueOr _ "choices" (.arr [.obj []]) = choices at htext hobject hlist
    cases choices with
    | str s => exact absurd ⟨s, rfl⟩ htext
    | obj parts => exact absurd ⟨parts, rfl⟩ hobject
    | arr items => exact absurd rfl (hlist items)
    | _ => rfl
  | choice hchoices hfirst =>
    rw [readCompatible_obj, hchoices]
    change (field _ "message").bind _ = _
    rw [field_error hfirst]
    rfl
  | message hchoices hmessage => exact readCompatible_blunt hchoices hmessage
  | parts hchoices hmessage hissues hne =>
    rw [readCompatible_told hchoices hmessage]
    exact checkReply_error.mpr ⟨_, hissues, hne, rfl⟩

/-! ## Asking -/

/-- The answer tells of success, and this document is in it. -/
def Answer.Holds (a : Answer) (j : Json) : Prop := ∃ sender url, a.read sender url = .ok j

theorem Body.read_ok {b : Body} {sender : String} (h : b.read sender = .ok j) (other : String) :
    b.read other = .ok j := by
  cases b with
  | json i => exact h
  | text s =>
    unfold Body.read at h ⊢
    dsimp only at h ⊢
    split at h
    · exact h
    · cases h

theorem Answer.read_ok {a : Answer} (sender url : String) :
    a.read sender url = .ok j ↔ a.Holds j := by
  refine ⟨fun h => ⟨sender, url, h⟩, ?_⟩
  rintro ⟨sender', url', h⟩
  cases a with
  | broken text => cases h
  | response status body =>
    unfold Answer.read at h ⊢
    dsimp only at h ⊢
    split at h
    · next hs =>
      rw [if_pos hs]
      exact Body.read_ok h sender
    · cases h

/-- An answer without a document is told as a model that cannot be asked. -/
theorem Answer.read_error {a : Answer} {sender url : String} (h : a.read sender url = .error e) :
    ∃ f, e = .completion f := by
  cases a with
  | broken text =>
    cases h
    exact ⟨_, rfl⟩
  | response status body =>
    unfold Answer.read at h
    dsimp only at h
    split at h
    · cases body with
      | json j => cases h
      | text s =>
        unfold Body.read at h
        dsimp only at h
        split at h <;> cases h
        exact ⟨_, rfl⟩
    · cases h
      exact ⟨_, rfl⟩

theorem Untimed.otherwise (h : Untimed j e) (f : CompletionFault) : e ≠ .completion f := by
  cases h <;> nofun

/-- What is wrong with a document is no reason to say that the model cannot be asked. -/
theorem Client.Odd.otherwise {c : Client} {w : Wish} (h : c.Odd w j e) (f : CompletionFault) :
    e ≠ .completion f := by
  unfold Client.Odd at h
  split at h
  · cases h with
    | duration _ _ htime => exact htime.otherwise f
    | _ => nofun
  · cases h <;> nofun

/-- How the client reads a document. -/
def Client.reads (c : Client) (w : Wish) : Json → Except Failure Reply :=
  match c.provider with
  | .ollama => readOllama (c.modelFor w)
  | .openai => readCompatible (c.modelFor w)

theorem Client.reads_error {c : Client} {w : Wish} : c.reads w j = .error e ↔ c.Odd w j e := by
  obtain ⟨provider, _⟩ := c
  cases provider with
  | ollama => exact ⟨OddMessage.of_error, OddMessage.error⟩
  | openai => exact ⟨OddChoice.of_error, OddChoice.error⟩

theorem Client.read_eq (c : Client) (w : Wish) (r : Request) (a : Answer) :
    ∃ sender, c.read w r a = (a.read sender r.url).bind (c.reads w) := by
  obtain ⟨provider, _⟩ := c
  cases provider <;> exact ⟨_, rfl⟩

/-- A client cannot read an answer, and does not say so, exactly if it holds an odd document. -/
theorem Client.read_error {c : Client} {w : Wish} {r : Request} {a : Answer} :
    (c.read w r a = .error e ∧ ∀ f, e ≠ .completion f) ↔ ∃ j, a.Holds j ∧ c.Odd w j e := by
  obtain ⟨sender, hread⟩ := c.read_eq w r a
  rw [hread]
  constructor
  · rintro ⟨h, hother⟩
    rcases bind_eq_error.mp h with h | ⟨j, hj, h⟩
    · obtain ⟨f, rfl⟩ := Answer.read_error h
      exact absurd rfl (hother f)
    · exact ⟨j, (Answer.read_ok _ _).mp hj, Client.reads_error.mp h⟩
  · rintro ⟨j, hj, h⟩
    have hreads := Client.reads_error.mpr h
    exact ⟨bind_eq_error.mpr (.inr ⟨j, (Answer.read_ok _ _).mpr hj, hreads⟩), h.otherwise⟩

end Completion

/-! ## Analyses -/

namespace Session

variable {α : Type} {x y : Session} {r : Root} {suiteId text floors : String} {c : Chat}
  {suite : Suite} {e : Failure}

/-- An analysis gets as far as asking, with a prompt about these floors; what asking comes to. -/
structure Asks (x : Session) (suiteId : String) (c : Chat) (floors : String)
    (answer : Except Failure String) : Prop where
  idle : x.analyzer.busy = false
  asked : ∃ y r suite text, x.Opens y ∧ y.storage.store.root = some r ∧
    y.Renders r suiteId c suite text floors ∧ text ≠ "" ∧ r.enabled suite ≠ [] ∧
    y.answer r.settings.api (text ++ "\n\n" ++ instructions (r.enabled suite)) = answer

/-- A failure that is not about asking the model is passed on. -/
theorem ended_caught_other {act : Activity Session α} (h : ended act x = (.error e, y))
    (hother : ∀ f, e ≠ .completion f) : ended (caught act) x = (.error e, y) := by
  have hmapped : ended (Except.ok (ε := CompletionFault) <$> act) x = (.error e, y) :=
    ended_bind_error h _
  unfold ended at hmapped
  unfold ended caught
  refine (finish_attempt ((Except.ok (ε := CompletionFault) <$> act : Activity Session _) x)
    _).trans ?_
  rw [hmapped]
  cases e with
  | completion f => exact absurd rfl (hother f)
  | _ => rfl

/-- What an analysis that asked in vain comes to. -/
def inVain (floors : String) : Failure → Except Failure AnalysisResult
  | .completion fault => .ok (.failed (.noReply fault) floors)
  | e => .error e

theorem ended_analyzeFrom_inVain (hroot : y.storage.store.root = some r) {ds : List Definition}
    (hds : ds ≠ []) (suite : Suite) (c : Chat) (floors : String)
    (hanswer : y.answer r.settings.api (text ++ "\n\n" ++ instructions ds) = .error e) :
    (ended (analyzeFrom suite c text floors ds) y).1 = inVain floors e := by
  obtain ⟨model, line, log, hask⟩ := ended_ask hroot suite c.id floors
    (text ++ "\n\n" ++ instructions ds)
  rw [hanswer] at hask
  unfold analyzeFrom
  rw [if_neg (by rwa [List.isEmpty_iff])]
  cases e with
  | completion fault =>
    exact congrArg Prod.fst (ended_bind_ok (ended_caught (a := .error fault) hask) _)
  | _ => exact congrArg Prod.fst (ended_bind_error (ended_caught_other hask nofun) _)

theorem Asks.inVain (h : x.Asks suiteId c floors (.error e)) :
    (ended (analyze suiteId c) x).1 = Session.inVain floors e := by
  obtain ⟨y, r, suite, text, hopens, hroot, hrenders, htext, hsome, hanswer⟩ := h.asked
  have hidle : y.analyzer.busy = false := by
    obtain ⟨r, s, -, rfl⟩ := hopens
    exact h.idle
  obtain ⟨hlooks, -⟩ := ended_warm hroot c.id
  have hread : ended (Storage.loadValues c.id) y.storage = (.ok (y.storage.serves r c.id), _) :=
    Prod.ext (Storage.loadValues_answer hroot c.id) rfl
  have hfrom := ended_analyzeFrom_inVain (y := { y with
    storage := (ended (Storage.loadValues c.id) y.storage).2
    analyzer := { y.analyzer with busy := true, lastFloors := some floors } })
    hlooks.root hsome suite c floors hanswer
  rw [← hopens.analyze h.idle, ended_analyze_from hroot hidle hread hrenders htext rfl]
  exact hfrom

end Session

/-- Asking a model fails otherwise than by saying that it cannot be asked exactly if the answer
holds an odd document. An analysis that asks a model that cannot be asked reports that, and gives no
results; it fails as asking does otherwise. -/
theorem reported_or_odd (l : Completion.Line) (client : Completion.Client) (messages : Json)
    (w : Completion.Wish) (x : Session) (suiteId : String) (c : Chat) (floors : String) :
    (∀ e, ((l.ask client messages w).1 = .error e ∧ ∀ f, e ≠ .completion f) ↔
      ∃ j, (l.send (client.request messages w)).1.Holds j ∧ client.Odd w j e) ∧
    ∀ e, x.Asks suiteId c floors (.error e) →
      (∀ fault, e = .completion fault →
        (ended (Session.analyze suiteId c) x).1 = .ok (.failed (.noReply fault) floors)) ∧
      ((∀ fault, e ≠ .completion fault) →
        (ended (Session.analyze suiteId c) x).1 = .error e) := by
  refine ⟨fun e => Completion.Client.read_error, fun e h => ?_⟩
  rw [h.inVain]
  refine ⟨?_, fun hother => ?_⟩
  · rintro fault rfl
    rfl
  · cases e with
    | completion fault => exact absurd rfl (hother fault)
    | _ => rfl

/-- A session with a suite that asks another endpoint, which answers in this way. -/
def Session.reaching (answer : Completion.Answer) : Session :=
  let x := Session.asking []
  let api := { ApiOverride.standard with custom := true, baseUrl := "http://localhost:8080" }
  { x with
    endpoint := some (.ofConfig .standard)
    line := ⟨[answer], []⟩
    storage := (ended (Storage.saveSettings { Settings.standard with api := api }) x.storage).2 }

/-- An endpoint that is down is reported. One that answers with an empty list is not, though the
answer is a success: the list is asked for its choices. -/
theorem reported_or_odd_list :
    let asking (answer : Completion.Answer) :=
      (ended (Session.analyze "suite_0b63ci" ⟨"c", [], none⟩) (.reaching answer)).1
    asking (.broken "refused") = .ok (.failed (.noReply (.unreachable "refused")) "0") ∧
      asking (.response 200 (.json (.arr []))) = .error .noFields ∧
      ∃ e, ((⟨[.response 200 (.json (.arr []))], []⟩ : Completion.Line).ask
        (.ofConfig .standard) (Completion.promptMessages none "Go on.") .none).1 = .error e ∧
          ∀ f, e ≠ .completion f := by
  have hasks (answer : Completion.Answer) (e : Failure)
      (hrendered : (Session.reaching answer).prompted "suite_0b63ci" ⟨"c", [], none⟩ =
        .ok ("Go on.", "0"))
      (hfound : ((Session.reaching answer).storage.store.root.bind fun r =>
        Json.find? r.suites "suite_0b63ci") = some Suite.daily)
      (hsome : ((Session.reaching answer).storage.store.root.map fun r =>
        (r.enabled .daily).length) = some 1)
      (hanswer : ((Session.reaching answer).storage.store.root.map fun r =>
        (Session.reaching answer).answer r.settings.api ("Go on." ++ "\n\n" ++
          instructions (r.enabled .daily))) = some (.error e)) :
      (Session.reaching answer).Asks "suite_0b63ci" ⟨"c", [], none⟩ "0" (.error e) := by
    obtain ⟨r, hr, hanswer⟩ := Option.map_eq_some_iff.mp hanswer
    rw [hr] at hfound hsome
    have hlength : (r.enabled .daily).length = 1 := Option.some.inj hsome
    exact ⟨rfl, _, r, .daily, "Go on.", ⟨r, _, Storage.ended_load_some hr, rfl⟩, hr,
      ⟨hfound, hrendered⟩, by decide, List.ne_nil_of_length_pos (by rw [hlength]; decide), hanswer⟩
  have hlaws (answer : Completion.Answer) :=
    reported_or_odd ⟨[answer], []⟩ (.ofConfig .standard) (Completion.promptMessages none "Go on.")
      .none (.reaching answer) "suite_0b63ci" ⟨"c", [], none⟩ "0"
  have hdown := (hlaws (.broken "refused")).2 _ (hasks (.broken "refused")
    (.completion (.unreachable "refused")) (by decide +kernel) (by decide +kernel)
    (by decide +kernel) (by decide +kernel))
  have hlist := (hlaws (.response 200 (.json (.arr [])))).2 _ (hasks
    (.response 200 (.json (.arr []))) .noFields (by decide +kernel) (by decide +kernel)
    (by decide +kernel) (by decide +kernel))
  have hodd := ((hlaws (.response 200 (.json (.arr [])))).1 .noFields).mpr
    ⟨.arr [], ⟨"", "", rfl⟩, .document nofun⟩
  exact ⟨hdown.1 _ rfl, hlist.2 nofun, .noFields, hodd⟩

end TagLedger
