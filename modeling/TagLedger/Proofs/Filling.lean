import TagLedger.Proofs.Analysing
import TagLedger.Proofs.Counting
import TagLedger.Proofs.Defining

/-!
# Suites that fill their variables

A suite is run: its prompt is sent, and what the reply tags is stored. As identifiers and tags tell
the definitions apart, each content reaches the variable that it was asked for and no other. A run
that gets no reply stores nothing; what the analyzer remembers of it may still be used later.

    results with tags of their own  →  each takes its content, all else is kept      (ended_assign)
    a run in a storage that an empty one came to                                     (run_laws)
-/

namespace TagLedger

variable {s t : Storage} {r : Root} {vs ws : ChatValues} {chat floors : String} {now : Int}
  {ds : List (String × Definition)} {results : List Tagged}

/-! ## Taking a content -/

/-- The value of a variable that takes a content. -/
def Definition.take (d : Definition) (vs : ChatValues) (content floors : String) (now : Int) :
    Value :=
  match d.mode with
  | .stack => .stack ((vs.stack d.id).push content floors now)
  | .replace => .slot ((vs.slot d.id).put content floors now)

/-- Only the value of the variable itself matters. -/
theorem Definition.take_congr {d : Definition} (h : Json.find? ws d.id = Json.find? vs d.id)
    (content floors : String) (now : Int) :
    d.take ws content floors now = d.take vs content floors now := by
  unfold Definition.take ChatValues.stack ChatValues.slot
  rw [h]

/-- The values `ws` are the values `vs` after each result was taken by the variable of its tag. -/
structure Takes (ds : List (String × Definition)) (floors : String) (now : Int)
    (results : List Tagged) (vs ws : ChatValues) : Prop where
  taken : ∀ p ∈ results, ∀ d, Variables.tagged? ds p.tag = some d →
    Json.find? ws d.id = some (d.take vs p.content floors now)
  kept : ∀ id, (∀ p ∈ results, ∀ d, Variables.tagged? ds p.tag = some d → d.id ≠ id) →
    Json.find? ws id = Json.find? vs id

/-- No two results are for one variable. -/
def Tagged.Separate (ds : List (String × Definition)) (results : List Tagged) : Prop :=
  results.Pairwise fun p q => ∀ d e, Variables.tagged? ds p.tag = some d →
    Variables.tagged? ds q.tag = some e → d.id ≠ e.id

namespace Takes

theorem nil : Takes ds floors now [] vs vs := ⟨nofun, fun _ _ => rfl⟩

/-- The first result is taken, and then the others are, which are for other variables. -/
theorem cons {p : Tagged} {d : Definition} (hd : Variables.tagged? ds p.tag = some d)
    (hother : ∀ q ∈ results, ∀ e, Variables.tagged? ds q.tag = some e → d.id ≠ e.id)
    (h : Takes ds floors now results (Json.insert vs d.id (d.take vs p.content floors now)) ws) :
    Takes ds floors now (p :: results) vs ws where
  taken q hq e he := by
    rcases List.mem_cons.mp hq with rfl | hq
    · obtain rfl := Option.some.inj (hd.symm.trans he)
      rw [h.kept d.id fun q hq e he => (hother q hq e he).symm, Json.find?_insert, if_pos rfl]
    · rw [h.taken q hq e he]
      refine congrArg some (Definition.take_congr ?_ _ _ _)
      rw [Json.find?_insert, if_neg (hother q hq e he)]
  kept id hid := by
    have hne := hid p List.mem_cons_self d hd
    rw [h.kept id fun q hq => hid q (List.mem_cons_of_mem p hq), Json.find?_insert, if_neg hne]

end Takes

/-! ## Storing results -/

/-- With the root `r`, `t` serves one chat with these values from memory and others as `s` does. -/
structure Storage.Rewritten (r : Root) (chat : String) (s : Storage) (ws : ChatValues)
    (t : Storage) : Prop where
  root : t.store.root = some r
  here : t.store.usable? chat = some ws
  clock : t.clock = s.clock
  others : ∀ other, other ≠ chat → t.serves r other = s.serves r other

theorem Storage.Rewritten.stored (h : Storage.Rewritten r chat s vs t) (new : ChatValues) :
    Storage.Rewritten r chat s new (t.stored chat new) where
  root := h.root
  here := Store.usable?_soon (Store.not_degraded_of_usable h.here) _ _
  clock := h.clock
  others other hne := by
    have hcached : (t.stored chat new).store.cached? other = t.store.cached? other :=
      (Store.cached?_setValues t.store chat new other).trans (if_neg hne.symm)
    have husable : (t.stored chat new).store.usable? other = t.store.usable? other :=
      congrArg (fun x => if t.store.isDegraded other then none else x) hcached
    exact (Storage.serves_congr husable hcached rfl (fun _ => rfl) fun _ => rfl).trans
      (h.others other hne)

namespace Session

theorem ended_assignOne {p : Tagged} {d : Definition} (h : Storage.Rewritten r chat s vs t)
    (hd : Variables.tagged? r.definitions p.tag = some d) (floors : String) :
    ended (assignOne chat floors p) t = (.ok true,
      t.stored chat (Json.insert vs d.id (d.take vs p.content floors s.clock.now))) := by
  have hfind : ended (Variables.findByTag? p.tag) t = (.ok (some d), t) := by
    rw [← hd]
    exact ended_bind_ok (Storage.ended_definitions h.root) _
  unfold assignOne Definition.take
  rw [ended_bind_ok hfind, ← h.clock]
  dsimp only
  cases d.mode with
  | stack =>
    have hstack := Variables.ended_stack_usable h.here d.id
    exact ended_bind_ok (Variables.ended_addEntry hstack h.here p.content floors) _
  | replace => exact ended_bind_ok (Variables.ended_put h.here d.id p.content floors) _

/-- Results for variables of their own are all stored, and nothing else changes. -/
theorem ended_assign (floors : String) {results : List Tagged}
    (hall : ∀ p ∈ results, ∃ d, Variables.tagged? r.definitions p.tag = some d)
    (hseparate : Tagged.Separate r.definitions results) :
    ∀ {x : Session} {vs : ChatValues}, Storage.Rewritten r chat s vs x.storage →
      ∃ ws t, ended (assign chat floors results) x =
          (.ok results.length, { x with storage := t }) ∧
        Storage.Rewritten r chat s ws t ∧
        Takes r.definitions floors s.clock.now results vs ws := by
  induction results with
  | nil => exact fun {x vs} h => ⟨vs, x.storage, rfl, h, .nil⟩
  | cons p results ih =>
    intro x vs h
    rw [List.forall_mem_cons] at hall
    obtain ⟨hother, hseparate⟩ := List.pairwise_cons.mp hseparate
    obtain ⟨d, hd⟩ := hall.1
    let new := Json.insert vs d.id (d.take vs p.content floors s.clock.now)
    have hone : ended (stored (assignOne chat floors p)) x =
        (.ok true, { x with storage := x.storage.stored chat new }) := by
      rw [ended_stored, ended_assignOne h hd floors]
    obtain ⟨ws, t, hrest, hrewritten, htakes⟩ := ih hall.2 hseparate
      (x := { x with storage := x.storage.stored chat new }) (h.stored new)
    refine ⟨ws, t, ?_, hrewritten, .cons hd (fun q hq e => hother q hq d e hd) htakes⟩
    unfold assign
    rw [ended_bind_ok hone, ended_bind_ok hrest, List.length_cons, Nat.add_comm]
    rfl

end Session

/-! ## Results of a reply -/

variable {suite : Suite} {response : String} {d : Definition} {p : Tagged}

theorem Tagged.tag_of_some {tag content : String}
    (h : (if content = "" then none else some (⟨tag, content⟩ : Tagged)) = some p) :
    p.tag = tag := by
  split at h
  · contradiction
  · rw [← Option.some.inj h]

theorem mem_parseReply {ds : List Definition} (h : p ∈ parseReply response ds) :
    ∃ d ∈ ds, p.tag = d.tag := by
  obtain ⟨d, hd, hp⟩ := List.mem_filterMap.mp h
  exact ⟨d, hd, Tagged.tag_of_some hp⟩

namespace Unambiguous

variable (h : Unambiguous r.definitions)

include h

/-- An enabled definition is found by its tag. -/
theorem tagged?_enabled (hd : d ∈ r.enabled suite) :
    Variables.tagged? r.definitions d.tag = some d := by
  obtain ⟨id, -, hfind⟩ := List.mem_filterMap.mp hd
  exact h.tagged?_eq hfind

theorem tagged?_result (hp : p ∈ parseReply response (r.enabled suite)) :
    ∃ d ∈ r.enabled suite, p.tag = d.tag ∧ Variables.tagged? r.definitions p.tag = some d := by
  obtain ⟨d, hd, htag⟩ := mem_parseReply hp
  exact ⟨d, hd, htag, htag ▸ h.tagged?_enabled hd⟩

/-- If no variable is enabled twice, no two results are for one variable. -/
theorem separate (hnodup : suite.enabledVariables.Nodup) :
    Tagged.Separate r.definitions (parseReply response (r.enabled suite)) := by
  have hids : (r.enabled suite).Pairwise fun d e => d.id ≠ e.id := by
    unfold Root.enabled
    rw [List.pairwise_filterMap]
    refine hnodup.imp fun hne d hd e he heq => hne ?_
    rw [← h.id_eq _ d hd, ← h.id_eq _ e he, heq]
  unfold Tagged.Separate parseReply
  rw [List.pairwise_filterMap]
  refine hids.imp_of_mem fun hd he hne p hp q hq d' e' hd' he' => ?_
  rw [Tagged.tag_of_some hp, h.tagged?_enabled hd] at hd'
  rw [Tagged.tag_of_some hq, h.tagged?_enabled he] at he'
  rw [← Option.some.inj hd', ← Option.some.inj he']
  exact hne

end Unambiguous

/-- The values of a chat after the results of a reply were stored: an entry more in a stack, another
current content in a slot, and everything else as it was. -/
structure Filled (ds : List Definition) (results : List Tagged) (floors : String) (now : Int)
    (vs ws : ChatValues) : Prop where
  pushed : ∀ d ∈ ds, d.mode = .stack → ∀ p ∈ results, p.tag = d.tag →
    Json.find? ws d.id = some (.stack
      ⟨(vs.stack d.id).entries ++ [⟨(vs.stack d.id).nextId, p.content, floors, now, false⟩],
        (vs.stack d.id).nextId + 1⟩)
  replaced : ∀ d ∈ ds, d.mode = .replace → ∀ p ∈ results, p.tag = d.tag →
    ∃ x, Json.find? ws d.id = some (.slot x) ∧
      (vs.slot d.id).Replaced x ⟨p.content, floors⟩ now
  others : ∀ id, (∀ d ∈ ds, ∀ p ∈ results, p.tag = d.tag → d.id ≠ id) →
    Json.find? ws id = Json.find? vs id

theorem Takes.filled (h : Unambiguous r.definitions) (hfloors : floors ≠ "")
    (htakes : Takes r.definitions floors now (parseReply response (r.enabled suite)) vs ws) :
    Filled (r.enabled suite) (parseReply response (r.enabled suite)) floors now vs ws where
  pushed d hd hmode p hp htag := by
    rw [htakes.taken p hp d (htag ▸ h.tagged?_enabled hd), Definition.take, hmode]
    rfl
  replaced d hd hmode p hp htag := by
    rw [htakes.taken p hp d (htag ▸ h.tagged?_enabled hd), Definition.take, hmode]
    refine ⟨_, rfl, ?_⟩
    have hreplaced := (vs.slot d.id).replaced_put p.content floors now
    rw [Slot.shownFloors, if_neg hfloors] at hreplaced
    exact hreplaced
  others id hid := htakes.kept id fun p hp d hd => by
    obtain ⟨e, he, htag, hfind⟩ := h.tagged?_result hp
    obtain rfl := Option.some.inj (hfind.symm.trans hd)
    exact hid e he p hp htag

/-! ## Runs -/

namespace Session

variable {x y z : Session} {suiteId : String} {c : Chat} {result : AnalysisResult}

theorem ended_run_failed (h : ended (analyze suiteId c) x = (.ok result, y))
    (hfailed : result.succeeded = false) : ended (run suiteId c) x = (.ok result, y) := by
  unfold run
  rw [ended_bind_ok h, hfailed]
  rfl

theorem ended_run {n : Nat} (h : ended (analyze suiteId c) x = (.ok result, y))
    (hsucceeded : result.succeeded = true) (hzero : result.assigned = 0)
    (hfloors : result.floors ≠ "")
    (hassign : ended (assign c.id result.floors result.results) y = (.ok n, z)) :
    ended (run suiteId c) x = (.ok { result with assigned := n }, z) := by
  unfold run
  rw [ended_bind_ok h, hsucceeded, if_neg hfloors]
  by_cases hempty : result.results = []
  · rw [hempty] at hassign
    obtain ⟨hn, rfl⟩ := Prod.mk.inj hassign
    rw [if_pos (by rw [hempty]; rfl), ← Except.ok.inj hn, ← hzero]
    rfl
  · rw [if_neg (by rwa [Bool.not_true, Bool.false_or, List.isEmpty_iff])]
    exact ended_bind_ok hassign _

end Session

/-- For those who ask, the root, the documents and the values of all chats are the same. -/
structure Storage.Unaltered (s t : Storage) : Prop where
  root : t.store.root = s.store.root
  documents : t.shelf.documents = s.shelf.documents
  values : ∀ chat, (ended (Storage.loadValues chat) t).1 = (ended (Storage.loadValues chat) s).1

theorem Looks.unaltered (h : Looks r s t) (hroot : s.store.root = some r) : s.Unaltered t where
  root := h.root.trans hroot.symm
  documents := h.documents
  values chat := by
    rw [Storage.loadValues_answer h.root, Storage.loadValues_answer hroot, h.serves]

/-- What a run of a suite comes to in a session with the root `r` that serves the chat with `vs`. -/
structure RunLaws (x : Session) (r : Root) (vs : ChatValues) (suiteId : String) (c : Chat) :
    Prop where
  noSuite : Json.find? r.suites suiteId = none →
    ended (Session.run suiteId c) x = (.ok (.failed .noSuite ""), x)
  noPrompt : ∀ suite e, Json.find? r.suites suiteId = some suite →
    x.prompted suite.id c = .error e →
    ∃ t, x.storage.Unaltered t ∧
      ended (Session.run suiteId c) x = (.error e, { x with storage := t })
  noItems : ∀ suite floors, Session.Renders x r suiteId c suite "" floors →
    ∃ t, x.storage.Unaltered t ∧ ended (Session.run suiteId c) x =
      (.ok (.failed .noItems ""), { x with storage := t })
  noVariables : ∀ suite text floors, Session.Renders x r suiteId c suite text floors →
    text ≠ "" → r.enabled suite = [] →
    ∃ t, x.storage.Unaltered t ∧ ended (Session.run suiteId c) x =
      (.ok (.failed .noVariables floors), { x with
        storage := t, analyzer := { x.analyzer with lastFloors := some floors } })
  noReply : ∀ suite text floors fault, Session.Renders x r suiteId c suite text floors →
    text ≠ "" → r.enabled suite ≠ [] →
    x.answer r.settings.api (text ++ "\n\n" ++ instructions (r.enabled suite)) =
      .error (.completion fault) →
    ∃ t model line log, x.storage.Unaltered t ∧ ended (Session.run suiteId c) x =
      (.ok (.failed (.noReply fault) floors), { x with
        storage := t, model := model, line := line, log := log
        analyzer := { x.analyzer with lastFloors := some floors } })
  reply : ∀ suite text floors response, Session.Renders x r suiteId c suite text floors →
    text ≠ "" → r.enabled suite ≠ [] → suite.enabledVariables.Nodup →
    x.answer r.settings.api (text ++ "\n\n" ++ instructions (r.enabled suite)) = .ok response →
    ∃ t model line log ws,
      ended (Session.run suiteId c) x =
        (.ok
          { fault := none
            results := parseReply response (r.enabled suite)
            floors := floors
            response := some response
            missing := ((r.enabled suite).map (·.tag)).filter fun tag =>
              tag ∉ (parseReply response (r.enabled suite)).map (·.tag)
            assigned := (parseReply response (r.enabled suite)).length },
          { x with
            storage := t, model := model, line := line, log := log
            analyzer := ⟨false, some response,
              some (parseReply response (r.enabled suite)), some floors⟩ }) ∧
      t.store.root = some r ∧
      (ended (Storage.loadValues c.id) t).1 = .ok ws ∧
      Filled (r.enabled suite) (parseReply response (r.enabled suite)) floors x.storage.clock.now
        vs ws ∧
      ∀ other, other ≠ c.id → (ended (Storage.loadValues other) t).1 =
        (ended (Storage.loadValues other) x.storage).1

section Laws

open Session

variable {x : Session} {suiteId text : String} {c : Chat} {u : Storage}
  (hroot : x.storage.store.root = some r) (hidle : x.analyzer.busy = false)

include hidle

/-- An analysis that notes nothing leaves an idle analyzer as it was. -/
theorem Session.ended_analyze_idle {a : Except Failure AnalysisResult} {t : Storage}
    (h : ended (analyzeNow suiteId c) { x with analyzer := { x.analyzer with busy := true } } =
      (a, { x with storage := t, analyzer := { x.analyzer with busy := true } })) :
    ended (analyze suiteId c) x = (a, { x with storage := t }) := by
  have hanalyze := ended_analyze hidle h
  dsimp only at hanalyze
  rwa [← hidle] at hanalyze

include hroot

theorem Session.ended_run_noSuite (hnone : Json.find? r.suites suiteId = none) :
    ended (run suiteId c) x = (.ok (.failed .noSuite ""), x) := by
  have hnow := ended_analyzeNow_noSuite (x := { x with
    analyzer := { x.analyzer with busy := true } }) hroot hnone c
  exact ended_run_failed (ended_analyze_idle hidle hnow) rfl

variable (hread : ended (Storage.loadValues c.id) x.storage = (.ok vs, u))

include hread

theorem Session.ended_run_noPrompt {e : Failure} (hfound : Json.find? r.suites suiteId = some suite)
    (hprompted : x.prompted suite.id c = .error e) :
    ended (run suiteId c) x = (.error e, { x with storage := u }) := by
  have hnow := ended_analyzeNow hroot hfound c { x.analyzer with busy := true }
  rw [hread, hprompted] at hnow
  exact ended_bind_error (ended_analyze_idle hidle hnow) _

theorem Session.ended_run_noItems (h : Renders x r suiteId c suite "" floors) :
    ended (run suiteId c) x = (.ok (.failed .noItems ""), { x with storage := u }) := by
  have hnow := ended_analyzeNow hroot h.found c { x.analyzer with busy := true }
  rw [hread, h.rendered] at hnow
  exact ended_run_failed (ended_analyze_idle hidle hnow) rfl

/-- A run whose prompt is a text goes on from it. -/
theorem Session.ended_analyze_from {a : Except Failure AnalysisResult} {y : Session}
    (h : Renders x r suiteId c suite text floors) (htext : text ≠ "")
    (hfrom : ended (analyzeFrom suite c text floors (r.enabled suite)) { x with
      storage := u
      analyzer := { x.analyzer with busy := true, lastFloors := some floors } } = (a, y)) :
    ended (analyze suiteId c) x =
      (a, { y with analyzer := { y.analyzer with busy := false } }) := by
  refine ended_analyze hidle ?_
  have hnow := ended_analyzeNow hroot h.found c { x.analyzer with busy := true }
  rw [hread, h.rendered] at hnow
  dsimp only at hnow
  rw [if_neg htext] at hnow
  exact hnow.trans hfrom

theorem Session.ended_run_noVariables (h : Renders x r suiteId c suite text floors)
    (htext : text ≠ "") (hnone : r.enabled suite = []) :
    ended (run suiteId c) x = (.ok (.failed .noVariables floors), { x with
      storage := u, analyzer := { x.analyzer with lastFloors := some floors } }) := by
  let prompted : Session := { x with
    storage := u, analyzer := { x.analyzer with busy := true, lastFloors := some floors } }
  have hfrom : ended (analyzeFrom suite c text floors (r.enabled suite)) prompted =
      (.ok (.failed .noVariables floors), prompted) := by
    rw [hnone]
    rfl
  dsimp only
  rw [hidle]
  exact ended_run_failed (ended_analyze_from hroot hidle hread h htext hfrom) rfl

variable (hlooks : Looks r x.storage u)

include hlooks

theorem Session.ended_run_noReply {fault : CompletionFault}
    (h : Renders x r suiteId c suite text floors) (htext : text ≠ "")
    (hsome : r.enabled suite ≠ [])
    (hfault : x.answer r.settings.api (text ++ "\n\n" ++ instructions (r.enabled suite)) =
      .error (.completion fault)) :
    ∃ model line log, ended (run suiteId c) x = (.ok (.failed (.noReply fault) floors), { x with
      storage := u, model := model, line := line, log := log
      analyzer := { x.analyzer with lastFloors := some floors } }) := by
  obtain ⟨model, line, log, hfrom⟩ := ended_analyzeFrom (a := .error fault) (y := { x with
      storage := u
      analyzer := { x.analyzer with busy := true, lastFloors := some floors } })
    hlooks.root hsome suite c floors hfault
  refine ⟨model, line, log, ?_⟩
  dsimp only
  rw [hidle]
  exact ended_run_failed (ended_analyze_from hroot hidle hread h htext hfrom) rfl

theorem Session.ended_analyze_reply {response : String}
    (h : Renders x r suiteId c suite text floors) (htext : text ≠ "")
    (hsome : r.enabled suite ≠ [])
    (hreply : x.answer r.settings.api (text ++ "\n\n" ++ instructions (r.enabled suite)) =
      .ok response) :
    ∃ model line log, ended (analyze suiteId c) x =
      (.ok ⟨none, parseReply response (r.enabled suite), floors, some response,
        missingTags (parseReply response (r.enabled suite)) (r.enabled suite), 0⟩, { x with
        storage := u, model := model, line := line, log := log
        analyzer := ⟨false, some response,
          some (parseReply response (r.enabled suite)), some floors⟩ }) := by
  obtain ⟨model, line, log, hfrom⟩ := ended_analyzeFrom (a := .ok response) (y := { x with
      storage := u
      analyzer := { x.analyzer with busy := true, lastFloors := some floors } })
    hlooks.root hsome suite c floors hreply
  exact ⟨model, line, log, ended_analyze_from hroot hidle hread h htext hfrom⟩

end Laws

theorem missingTags_eq (found : List Tagged) (ds : List Definition) :
    missingTags found ds = (ds.map (·.tag)).filter fun tag => tag ∉ found.map (·.tag) := by
  unfold missingTags
  refine List.filter_congr fun tag _ => ?_
  rw [Bool.eq_iff_iff, Bool.not_eq_true', ← Bool.not_eq_true, List.contains_iff_mem,
    decide_eq_true_iff]

/-- Runs of suites obey the laws where identifiers and tags tell the definitions apart. -/
theorem Unambiguous.runLaws {x : Session} {c : Chat} {u : Storage}
    (h : Unambiguous r.definitions) (hroot : x.storage.store.root = some r)
    (hidle : x.analyzer.busy = false)
    (hread : ended (Storage.loadValues c.id) x.storage = (.ok vs, u))
    (hreadable : u.store.isDegraded c.id = false) (suiteId : String) :
    RunLaws x r vs suiteId c := by
  obtain ⟨hlooks, -⟩ := Session.ended_warm hroot c.id
  rw [hread] at hlooks
  have hunaltered := hlooks.unaltered hroot
  have hbegun : Storage.Rewritten r c.id x.storage vs u :=
    ⟨hlooks.root, Storage.usable_of_loadValues hread hreadable, hlooks.clock,
      fun other _ => hlooks.serves other⟩
  exact
    { noSuite := Session.ended_run_noSuite hroot hidle
      noPrompt := fun suite e hfound hprompted =>
        ⟨u, hunaltered, Session.ended_run_noPrompt hroot hidle hread hfound hprompted⟩
      noItems := fun suite floors hrenders =>
        ⟨u, hunaltered, Session.ended_run_noItems hroot hidle hread hrenders⟩
      noVariables := fun suite text floors hrenders htext hnone =>
        ⟨u, hunaltered, Session.ended_run_noVariables hroot hidle hread hrenders htext hnone⟩
      noReply := fun suite text floors fault hrenders htext hsome hfault => by
        obtain ⟨model, line, log, hrun⟩ :=
          Session.ended_run_noReply hroot hidle hread hlooks hrenders htext hsome hfault
        exact ⟨u, model, line, log, hunaltered, hrun⟩
      reply := fun suite text floors response hrenders htext hsome hnodup hreply => by
        obtain ⟨model, line, log, hanalyze⟩ :=
          Session.ended_analyze_reply hroot hidle hread hlooks hrenders htext hsome hreply
        have hall (p : Tagged) (hp : p ∈ parseReply response (r.enabled suite)) :
            ∃ d, Variables.tagged? r.definitions p.tag = some d := by
          obtain ⟨d, -, -, hd⟩ := h.tagged?_result hp
          exact ⟨d, hd⟩
        obtain ⟨ws, t, hassign, hrewritten, htakes⟩ := Session.ended_assign (s := x.storage) floors
          hall (h.separate hnodup) (x := { x with
            storage := u, model := model, line := line, log := log
            analyzer := ⟨false, some response,
              some (parseReply response (r.enabled suite)), some floors⟩ }) hbegun
        refine ⟨t, model, line, log, ws, ?_, hrewritten.root, ?_,
          htakes.filled h hrenders.floors_ne, fun other hne => ?_⟩
        · rw [← missingTags_eq]
          exact Session.ended_run hanalyze rfl rfl hrenders.floors_ne hassign
        · rw [Storage.ended_loadValues_usable hrewritten.here]
        · rw [Storage.loadValues_answer hrewritten.root, Storage.loadValues_answer hroot,
            hrewritten.others other hne] }

/-- In a storage that an empty one came to, every run of a suite obeys the laws. -/
theorem run_laws {s : Storage} {x : Session} {c : Chat} {u : Storage}
    (hnew : s.store.root = none) (hempty : ∀ name, s.shelf.find? name = none)
    (hrun : GuardedRun (ended Storage.load s).2 x.storage) (hidle : x.analyzer.busy = false)
    (hread : ended (Storage.loadValues c.id) x.storage = (.ok vs, u))
    (hreadable : u.store.isDegraded c.id = false) (suiteId : String) :
    ∃ r, x.storage.store.root = some r ∧ RunLaws x r vs suiteId c := by
  obtain ⟨ds, hsteps, r, hroot, rfl⟩ := (Storage.Lists.ofNew hnew hempty).run hrun
  exact ⟨r, hroot, (unambiguous_of_steps hsteps).runLaws hroot hidle hread hreadable suiteId⟩

/-! ### A suite with one variable -/

/-- A variable is created, and a suite that asks for it. -/
def askingOperations : List Operation :=
  [.ofVariables (.create (some "log") (some "[log]") (some .stack)),
    .ofSuites (.create (some "Daily") true none none),
    .ofSuites (.addPrompt "suite_0b63ci" "Go on." "" none),
    .ofSuites (.addSlot "suite_0b63ci" "var_0qyxjj" none)]

/-- What comes of operations that are asked for one after another. -/
def Storage.asked (s : Storage) (ops : List Operation) : Storage :=
  ops.foldl (fun s op => (ended op.perform s).2) s

theorem guardedRun_asked (s : Storage) (ops : List Operation) (h : ∀ op ∈ ops, op.Guarded) :
    GuardedRun s (s.asked ops) :=
  List.foldlRecOn (motive := fun t => GuardedRun s t) ops _ .refl fun _ hs op hop =>
    hs.tail (.ask op (h op hop))

/-- A storage with that suite, begun where nothing was. -/
def Storage.asking : Storage :=
  (ended Storage.load ⟨.empty "root" "values-" 0 0, .ofDocuments [], ⟨0, 0⟩, .start⟩).2.asked
    askingOperations

/-- A session with that suite, in which the model answers in this way. -/
def Session.asking (replies : List Completion.Prepared) : Session :=
  { Session.ofConfig .standard (.ofDocuments []) 0 (.ofReplies replies) with storage := .asking }

/-- The suite with its prompt and its slot. -/
def Suite.daily : Suite :=
  ⟨"suite_0b63ci", "Daily", true, .manual,
    [.prompt ⟨"item_0dnc05", "", "Go on.", true⟩, .variable ⟨"var_0qyxjj", true⟩], none, 0, 0⟩

theorem guardedRun_asking : ∃ s : Storage, s.store.root = none ∧
    (∀ name, s.shelf.find? name = none) ∧ GuardedRun (ended Storage.load s).2 .asking := by
  refine ⟨⟨.empty "root" "values-" 0 0, .ofDocuments [], ⟨0, 0⟩, .start⟩, rfl, fun _ => rfl, ?_⟩
  unfold Storage.asking
  refine guardedRun_asked _ _ fun op hop => ?_
  simp only [askingOperations, List.mem_cons, List.not_mem_nil, or_false] at hop
  rcases hop with rfl | rfl | rfl | rfl <;> exact fun _ => nofun

/-- The model answers with an entry for the log. -/
theorem run_laws_asking : ∃ (s : Storage) (x : Session) (vs : ChatValues) (u : Storage) (r : Root)
    (suite : Suite), s.store.root = none ∧ (∀ name, s.shelf.find? name = none) ∧
      GuardedRun (ended Storage.load s).2 x.storage ∧ x.analyzer.busy = false ∧
      ended (Storage.loadValues "c") x.storage = (.ok vs, u) ∧ u.store.isDegraded "c" = false ∧
      x.Renders r "suite_0b63ci" ⟨"c", [], none⟩ suite "Go on." "0" ∧
      suite.enabledVariables = ["var_0qyxjj"] ∧ r.enabled suite ≠ [] ∧
      x.answer r.settings.api ("Go on." ++ "\n\n" ++ instructions (r.enabled suite)) =
        .ok "[log]one[/log]" ∧
      x.storage.store.root = some r ∧ RunLaws x r vs "suite_0b63ci" ⟨"c", [], none⟩ := by
  let x := Session.asking [.text "[log]one[/log]"]
  let c : Chat := ⟨"c", [], none⟩
  obtain ⟨s, hnew, hempty, hrun⟩ := guardedRun_asking
  have hread : ended (Storage.loadValues c.id) x.storage =
      (.ok [], (ended (Storage.loadValues c.id) x.storage).2) :=
    Prod.ext (by decide +kernel) rfl
  have hreadable : (ended (Storage.loadValues c.id) x.storage).2.store.isDegraded c.id = false := by
    decide +kernel
  obtain ⟨r, hr, hlaws⟩ := run_laws hnew hempty (x := x) hrun rfl hread hreadable "suite_0b63ci"
  have hfound : (x.storage.store.root.bind fun r => Json.find? r.suites "suite_0b63ci") =
      some Suite.daily := by decide +kernel
  have hsome : (x.storage.store.root.map fun r => (r.enabled .daily).length) = some 1 := by
    decide +kernel
  have hanswer : (x.storage.store.root.map fun r => x.answer r.settings.api
      ("Go on." ++ "\n\n" ++ instructions (r.enabled .daily))) =
        some (.ok "[log]one[/log]") := by decide +kernel
  rw [hr] at hfound hsome hanswer
  have hlength : (r.enabled .daily).length = 1 := Option.some.inj hsome
  exact ⟨s, x, [], _, r, .daily, hnew, hempty, hrun, rfl, hread, hreadable,
    ⟨hfound, by decide +kernel⟩, by decide,
    List.ne_nil_of_length_pos (by rw [hlength]; decide), Option.some.inj hanswer, hr, hlaws⟩

/-- The entry of the log after a reply that was given by hand, in a chat of ten messages. -/
def Session.afterApplied (x : Session) : Except Failure (Option Value) :=
  (ended (do
    let _ ← Session.apply "[log]one[/log]" "suite_0b63ci" "c" 9
    Session.stored (Storage.getValue "var_0qyxjj" "c")) x).1

/-- A run that got no reply can be told from none: a reply that is then given by hand is stored
under the floors of that run. -/
theorem run_noticed :
    let x := Session.asking [.failure "down"]
    let after := ended (Session.run "suite_0b63ci" ⟨"c", [], none⟩) x
    (∃ s : Storage, s.store.root = none ∧ (∀ name, s.shelf.find? name = none) ∧
      GuardedRun (ended Storage.load s).2 x.storage) ∧ x.analyzer.busy = false ∧
      (ended (Storage.loadValues "c") x.storage).1 = .ok [] ∧
      (ended (Storage.loadValues "c") x.storage).2.store.isDegraded "c" = false ∧
      (x.storage.store.root.bind fun r => Json.find? r.suites "suite_0b63ci") = some .daily ∧
      Suite.daily.enabledVariables.Nodup ∧
      after.1 = .ok (.failed (.noReply (.reported "down")) "0") ∧
      x.afterApplied = .ok (some (.stack ⟨[⟨1, "one", "9", 0, false⟩], 2⟩)) ∧
      after.2.afterApplied = .ok (some (.stack ⟨[⟨1, "one", "0", 0, false⟩], 2⟩)) := by
  dsimp only
  refine ⟨guardedRun_asking, rfl, ?_, ?_, ?_, ?_, ?_, ?_, ?_⟩ <;> decide +kernel

end TagLedger
