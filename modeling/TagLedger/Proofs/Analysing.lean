import TagLedger.Proofs.Reopening
import TagLedger.Proofs.Versions

/-!
# Analyses

With the root in memory, an analysis goes through its stages in order: the suite, its prompt, the
definitions of its enabled variables, the reply. Until the reply is read it changes nothing that is
stored; each stage that fails ends it, and what the analyzer remembers by then stays.

    x.prompted id c = .ok (text, floors)  →  analyze id c = analyzeFrom … text floors …
-/

namespace TagLedger

variable {α β : Type} {x : Session} {s t : Storage} {r : Root} {suiteId : String} {c : Chat}
  {suite : Suite} {text floors : String}

/-! ## What is in memory -/

/-- The definitions of the enabled variables of a suite. -/
def Root.enabled (r : Root) (suite : Suite) : List Definition :=
  suite.enabledVariables.filterMap fun id => Json.find? r.definitions id

namespace Session

theorem ended_definitionsOf (h : s.store.root = some r) (ids : List String) :
    ended (definitionsOf ids) s =
      (.ok (ids.filterMap fun id => Json.find? r.definitions id), s) := by
  induction ids with
  | nil => rfl
  | cons id ids ih =>
    unfold definitionsOf
    rw [ended_bind_ok (Variables.ended_find h id), ended_bind_ok ih, List.filterMap_cons]
    cases Json.find? r.definitions id <;> rfl

/-- What leaves the storage as it is leaves the session as it is. -/
theorem ended_stored_same {act : Activity Storage α} {a : Except Failure α}
    (h : ended act x.storage = (a, x.storage)) : ended (stored act) x = (a, x) := by
  rw [ended_stored, h]

theorem ended_enabledDefinitions (hroot : x.storage.store.root = some r)
    (hsuite : Json.find? r.suites suiteId = some suite) :
    ended (enabledDefinitions suiteId) x = (.ok (r.enabled suite), x) := by
  have hids : ended (Suites.enabledVariables suiteId) x.storage =
      (.ok suite.enabledVariables, x.storage) := by
    unfold Suites.enabledVariables
    rw [ended_bind_ok (Suites.ended_find hroot suiteId), hsuite]
    rfl
  refine ended_stored_same ?_
  rw [ended_bind_ok hids]
  exact ended_definitionsOf hroot _

/-! ## The prompt -/

/-- The session is only looked at, and not what its analyzer remembers. -/
def Glances (act : Activity Session α) (x : Session) : Prop :=
  ∃ a, ∀ analyzer : Analyzer,
    ended act { x with analyzer := analyzer } = (a, { x with analyzer := analyzer })

namespace Glances

theorem pure (a : α) : Glances (pure a) x := ⟨.ok a, fun _ => rfl⟩

theorem ofExcept {ε : Type} (f : ε → Failure) (a : Except ε α) : Glances (.ofExcept f a) x := by
  cases a with
  | ok a => exact pure a
  | error e => exact ⟨.error (f e), fun _ => rfl⟩

theorem bind {act : Activity Session α} {f : α → Activity Session β} (hact : Glances act x)
    (hf : ∀ a, Glances (f a) x) : Glances (act >>= f) x := by
  obtain ⟨a, ha⟩ := hact
  cases a with
  | ok a =>
    obtain ⟨b, hb⟩ := hf a
    exact ⟨b, fun analyzer => (ended_bind_ok (ha analyzer) f).trans (hb analyzer)⟩
  | error e => exact ⟨.error e, fun analyzer => ended_bind_error (ha analyzer) f⟩

theorem look {f : Session → Activity Session α} {act : Activity Session α}
    (hf : ∀ analyzer, f { x with analyzer := analyzer } = act) (h : Glances act x) :
    Glances (get >>= f) x := by
  obtain ⟨a, ha⟩ := h
  refine ⟨a, fun analyzer => ?_⟩
  rw [ended_get_bind, hf]
  exact ha analyzer

theorem resolve (chat : String) (messages : List Message) (template : String) :
    Glances (Session.resolve chat messages template) x :=
  ofExcept (x := x) Failure.ofTemplate
    (Template.resolve (x.environment chat messages) x.templates.maxRounds template)

theorem ite {p : Prop} [Decidable p] {act act' : Activity Session α} (h : Glances act x)
    (h' : Glances act' x) : Glances (if p then act else act') x := by
  split
  · exact h
  · exact h'

theorem itemText (c : Chat) (i : Item) : Glances (Session.itemText c i) x := by
  cases i with
  | prompt p => exact (resolve c.id c.messages p.content).bind fun _ => pure _
  | chat item =>
    have hrender := ofExcept (x := x) Failure.ofRender
      (item.render x.templates.floorFormat c.messages)
    exact hrender.bind fun r => pure (if r.text = "" then none else some r)
  | character item =>
    exact ite (pure none) (look (fun _ => rfl) (pure ((x.host.characterText? item c).bind _)))
  | _ => exact pure none

theorem itemTexts (c : Chat) (items : List Item) : Glances (Session.itemTexts c items) x := by
  induction items with
  | nil => exact pure []
  | cons i items ih => exact (itemText c i).bind fun _ => ih.bind fun _ => pure _

theorem prompt (hroot : x.storage.store.root = some r) (suiteId : String) (c : Chat) :
    Glances (Session.prompt suiteId c) x := by
  have hitems : Glances (stored (Suites.visibleItems suiteId)) x := ⟨_, fun analyzer =>
    ended_stored_same (x := { x with analyzer := analyzer })
      (ended_bind_ok (Suites.ended_find hroot suiteId) _)⟩
  exact hitems.bind fun items => (itemTexts c items).bind fun _ => pure _

end Glances

/-- What the prompt of a suite comes to once the values of the chat are loaded. -/
def prompted (x : Session) (suiteId : String) (c : Chat) : Except Failure (String × String) :=
  (ended (do
    stored (Variables.warm c.id)
    prompt suiteId c) x).1

/-- The suite is found, and its prompt is this text about these floors. -/
structure Renders (x : Session) (r : Root) (suiteId : String) (c : Chat) (suite : Suite)
    (text floors : String) : Prop where
  found : Json.find? r.suites suiteId = some suite
  rendered : x.prompted suite.id c = .ok (text, floors)

/-- Loading a chat ahead changes nothing that can be seen. -/
theorem ended_warm (hroot : s.store.root = some r) (chat : String) :
    Looks r s (ended (Storage.loadValues chat) s).2 ∧
      ended (Variables.warm chat) s = (.ok (), (ended (Storage.loadValues chat) s).2) := by
  obtain ⟨held, granted, hrun⟩ := Storage.ended_loadValues_eq hroot chat
  refine ⟨?_, ?_⟩
  · rw [hrun]
    exact ((Looks.refl hroot).loaded chat).lined held granted
  · unfold Variables.warm
    rw [ended_bind_ok (Storage.ended_load_some hroot), hrun]
    exact ended_bind_ok hrun _

theorem ended_prompt (hroot : x.storage.store.root = some r) (suiteId : String) (c : Chat)
    (analyzer : Analyzer) :
    let warm := (ended (Storage.loadValues c.id) x.storage).2
    ended (prompt suiteId c) { x with storage := warm, analyzer := analyzer } =
      (x.prompted suiteId c, { x with storage := warm, analyzer := analyzer }) := by
  obtain ⟨hlooks, hwarm⟩ := ended_warm hroot c.id
  let warmed : Session := { x with storage := (ended (Storage.loadValues c.id) x.storage).2 }
  have hstored : ended (stored (Variables.warm c.id)) x = (.ok (), warmed) := by
    rw [ended_stored, hwarm]
  obtain ⟨a, ha⟩ := Glances.prompt (x := warmed) hlooks.root suiteId c
  have hprompted : x.prompted suiteId c = a := by
    unfold prompted
    rw [ended_bind_ok hstored,
      show ended (prompt suiteId c) warmed = (a, warmed) from ha x.analyzer]
  exact hprompted ▸ ha analyzer

theorem intText_ne (n : Int) : Text.intText n ≠ "" := by
  unfold Text.intText
  rw [Ne, String.ofList_eq_empty_iff]
  cases n with
  | ofNat n => exact Nat.toDigits_ne_nil
  | negSucc n => exact List.cons_ne_nil _ _

theorem spanText_ne (last : Nat) (fs : List Int) : spanText last fs ≠ "" := by
  cases fs with
  | nil => exact intText_ne _
  | cons f fs =>
    unfold spanText
    dsimp only
    split
    · exact intText_ne _
    · rw [Ne, String.append_eq_empty_iff, String.append_eq_empty_iff]
      exact fun h => intText_ne _ h.2

/-- The floors of a prompt are always named. -/
theorem Renders.floors_ne (h : Renders x r suiteId c suite text floors) : floors ≠ "" := by
  have hany {γ : Type} (act : Activity Session γ) :
      Meets (fun _ => True) (fun _ => True) act fun _ _ => True := fun y _ => by
    rcases ended act y with ⟨a, z⟩
    cases a <;> trivial
  have hspan : Meets (fun _ => True) (fun _ => True) (do
      stored (Variables.warm c.id)
      prompt suite.id c) fun a _ => ∃ fs, a.2 = spanText c.length fs :=
    (hany _).bind fun _ => (hany _).bind fun _ => (hany _).bind fun _ => .pure fun _ _ => ⟨_, rfl⟩
  have hrun := hspan x trivial
  have hrendered := h.rendered
  unfold prompted at hrendered
  rcases hend : ended (do
    stored (Variables.warm c.id)
    prompt suite.id c) x with ⟨a, y⟩
  rw [hend] at hrun hrendered
  obtain rfl : a = .ok (text, floors) := hrendered
  obtain ⟨fs, hfs⟩ := hrun
  rw [show floors = spanText c.length fs from hfs]
  exact spanText_ne _ _

/-! ## The reply -/

/-- The next prepared reply. -/
def rehearsed (m : Completion.Rehearsal) : Except Failure String :=
  match m.reply.1 with
  | .text t => .ok t
  | .failure words => .error (.completion (.reported words))

/-- The endpoint that is asked in place of the model, if one is configured and another is set. -/
def otherClient? (x : Session) (api : ApiOverride) : Option Completion.Client :=
  x.endpoint.bind fun client =>
    if Completion.ApiOverride.applies api then some (client.forAnalysis api) else none

/-- What asking the model with a text comes to. -/
def answer (x : Session) (api : ApiOverride) (text : String) : Except Failure String :=
  match x.otherClient? api with
  | some client =>
    (x.line.ask client (Completion.promptMessages none text) .none).1.map (·.content)
  | none => rehearsed x.model

theorem ended_otherEndpoint (hroot : x.storage.store.root = some r) :
    ended otherEndpoint? x = (.ok (x.otherClient? r.settings.api), x) := by
  have hsettings : ended (stored Storage.settings) x = (.ok r.settings, x) :=
    ended_stored_same (Storage.ended_settings hroot)
  unfold otherEndpoint? otherClient?
  rw [ended_get_bind]
  cases x.endpoint with
  | none => rfl
  | some client =>
    dsimp only
    rw [ended_bind_ok hsettings]
    dsimp only [Option.bind_some]
    split <;> rfl

theorem ended_askEndpoint (client : Completion.Client) (text : String) :
    ∃ name line, ended (askEndpoint client text) x = (.ok ⟨name,
      (x.line.ask client (Completion.promptMessages none text) .none).1.map (·.content)⟩,
        { x with line := line }) := by
  rcases hasked : x.line.ask client (Completion.promptMessages none text) .none with ⟨reply, line⟩
  have hreply := congrArg (fun p =>
    ((.ok p.1 : Except Failure (Except Failure Completion.Reply)), { x with line := p.2 })) hasked
  unfold askEndpoint
  cases reply with
  | ok a => exact ⟨a.model, line, (ended_bind_ok hreply _).trans rfl⟩
  | error e => exact ⟨client.model, line, (ended_bind_ok hreply _).trans rfl⟩

theorem ended_askRehearsal (text : String) : ∃ model, ended (askRehearsal text) x =
    (.ok ⟨Completion.Rehearsal.model, rehearsed x.model⟩, { x with model := model }) := by
  have hreply : rehearsed (x.model.hear text) = rehearsed x.model := by
    unfold rehearsed Completion.Rehearsal.reply Completion.Rehearsal.hear
    rcases x.model.replies with _ | ⟨p, _ | _⟩ <;> rfl
  refine ⟨(x.model.hear text).reply.2, ?_⟩
  rw [← hreply]
  obtain ⟨storage, templates, linked, ⟨replies, prompts, gateOpen, healthy⟩⟩ := x
  cases gateOpen with
  | true => rfl
  | false => rfl

/-- Asking gives the answer of the model, and changes only the model and the log of calls. -/
theorem ended_ask (hroot : x.storage.store.root = some r) (suite : Suite)
    (chat floors text : String) : ∃ model line log, ended (ask suite chat floors text) x =
      (x.answer r.settings.api text, { x with model := model, line := line, log := log }) := by
  unfold ask answer
  rw [ended_bind_ok (ended_otherEndpoint hroot)]
  cases x.otherClient? r.settings.api with
  | some client =>
    obtain ⟨name, line, hrun⟩ := ended_askEndpoint (x := x) client text
    refine ⟨x.model, line, ?_⟩
    dsimp only
    rw [ended_bind_ok hrun]
    generalize Except.map _ _ = reply
    rcases reply with e | t
    · cases e <;> exact ⟨_, rfl⟩
    · exact ⟨_, rfl⟩
  | none =>
    obtain ⟨model, hrun⟩ := ended_askRehearsal (x := x) text
    refine ⟨model, x.line, ?_⟩
    dsimp only
    rw [ended_bind_ok hrun]
    rcases rehearsed x.model with e | t
    · cases e <;> exact ⟨_, rfl⟩
    · exact ⟨_, rfl⟩

/-! ## Stages -/

/-- A model that cannot be asked is no failure. -/
def caught (act : Activity Session α) : Activity Session (Except CompletionFault α) :=
  tryCatch (Except.ok <$> act) fun
    | .completion fault => pure (.error fault)
    | e => throw e

theorem ended_caught {act : Activity Session α} {y : Session} {a : Except CompletionFault α}
    (h : ended act x = (a.mapError .completion, y)) : ended (caught act) x = (.ok a, y) := by
  let mapped : Activity Session (Except CompletionFault α) := Except.ok <$> act
  have hmapped : ended mapped x = ((a.mapError Failure.completion).map Except.ok, y) := by
    cases a with
    | ok a => exact ended_bind_ok h _
    | error fault => exact ended_bind_error h _
  unfold ended at hmapped
  unfold ended caught
  refine (finish_attempt (mapped x) _).trans ?_
  rw [hmapped]
  cases a <;> rfl

/-- An analysis from its prompt on. -/
def analyzeFrom (suite : Suite) (c : Chat) (text floors : String) (ds : List Definition) :
    Activity Session AnalysisResult := do
  if ds.isEmpty then return .failed .noVariables floors
  match ← caught (ask suite c.id floors (text ++ "\n\n" ++ instructions ds)) with
  | .error fault => return .failed (.noReply fault) floors
  | .ok response => readReply ds floors response

theorem ended_analyzeNow_noSuite (hroot : x.storage.store.root = some r)
    (hnone : Json.find? r.suites suiteId = none) (c : Chat) :
    ended (analyzeNow suiteId c) x = (.ok (.failed .noSuite ""), x) := by
  have hfind := ended_stored_same (Suites.ended_find hroot suiteId)
  unfold analyzeNow
  rw [ended_bind_ok hfind, hnone]
  rfl

theorem ended_analyzeNow (hroot : x.storage.store.root = some r)
    (hfound : Json.find? r.suites suiteId = some suite) (c : Chat) (analyzer : Analyzer) :
    let warm : Session := { x with
      storage := (ended (Storage.loadValues c.id) x.storage).2, analyzer := analyzer }
    ended (analyzeNow suiteId c) { x with analyzer := analyzer } =
      match x.prompted suite.id c with
      | .error e => (.error e, warm)
      | .ok (text, floors) =>
        if text = "" then (.ok (.failed .noItems ""), warm)
        else ended (analyzeFrom suite c text floors (r.enabled suite))
          { warm with analyzer := { analyzer with lastFloors := some floors } } := by
  intro warm
  obtain ⟨hlooks, hload⟩ := ended_warm hroot c.id
  have hfind := ended_stored_same (x := { x with analyzer := analyzer })
    (Suites.ended_find hroot suiteId)
  have hwarm : ended (stored (Variables.warm c.id)) { x with analyzer := analyzer } =
      (.ok (), warm) := by rw [ended_stored, hload]
  have hprompt : ended (prompt suite.id c) warm = (x.prompted suite.id c, warm) :=
    ended_prompt hroot suite.id c analyzer
  unfold analyzeNow
  rw [ended_bind_ok hfind, hfound]
  dsimp only
  rw [ended_bind_ok hwarm]
  rcases hcase : x.prompted suite.id c with e | ⟨text, floors⟩ <;> rw [hcase] at hprompt
  · exact ended_bind_error hprompt _
  let noted : Session := { warm with analyzer := { analyzer with lastFloors := some floors } }
  have hnote : ended (Activity.ofAction
      (onAnalyzer fun a => { a with lastFloors := some floors })) warm = (.ok (), noted) := rfl
  have hds : ended (enabledDefinitions suiteId) noted = (.ok (r.enabled suite), noted) :=
    ended_enabledDefinitions hlooks.root hfound
  rw [ended_bind_ok hprompt]
  dsimp only
  split
  · rfl
  · refine (ended_bind_ok hnote _).trans ?_
    rw [ended_bind_ok hds]
    rfl

theorem ended_analyze {a : Except Failure AnalysisResult} {y : Session}
    (hidle : x.analyzer.busy = false)
    (h : ended (analyzeNow suiteId c) { x with analyzer := { x.analyzer with busy := true } } =
      (a, y)) :
    ended (analyze suiteId c) x =
      (a, { y with analyzer := { y.analyzer with busy := false } }) := by
  unfold analyze
  rw [ended_get_bind, hidle]
  let begun : Session := { x with analyzer := { x.analyzer with busy := true } }
  have hbegin : ended (Activity.ofAction (onAnalyzer fun a => { a with busy := true })) x =
      (.ok (), begun) := rfl
  refine (ended_bind_ok hbegin _).trans ?_
  rw [ended_ensuring, h]
  rfl

/-! ## From the prompt on -/

section From

variable {y : Session} {ds : List Definition} (hroot : y.storage.store.root = some r)
  (hds : ds ≠ [])

include hroot hds

/-- The model is asked when there are definitions. -/
theorem ended_analyzeFrom (suite : Suite) (c : Chat) (floors : String)
    {a : Except CompletionFault String}
    (hanswer : y.answer r.settings.api (text ++ "\n\n" ++ instructions ds) =
      a.mapError .completion) :
    ∃ model line log, ended (analyzeFrom suite c text floors ds) y =
      ended (match a with
        | .error fault => return .failed (.noReply fault) floors
        | .ok response => readReply ds floors response)
        { y with model := model, line := line, log := log } := by
  obtain ⟨model, line, log, hask⟩ := ended_ask hroot suite c.id floors
    (text ++ "\n\n" ++ instructions ds)
  rw [hanswer] at hask
  refine ⟨model, line, log, ?_⟩
  unfold analyzeFrom
  rw [if_neg (by rwa [List.isEmpty_iff])]
  exact ended_bind_ok (ended_caught hask) _

end From

end Session

end TagLedger
