import TagLedger.Proofs.Agreeing
import TagLedger.Proofs.Filling

/-!
# Labels of replies given by hand

The analyzer remembers the floors of its last analysis, and a reply that is given by hand is stored
under them. What other chats were analysed before makes no difference to what is stored in a chat
but for that label: it can name the floors of a chat that the reply is not for.

    an analysis of c, each time with the same model → the sessions agree on c     (Inquiry.agree_after)
    an analysis of d ≠ c in one of them             → they agree on c             (Inquiry.agree_aside)
    an analysis                                     → its floors are the label    (Inquiry.label_after)
    two histories with the same analyses of c       → a reply is stored alike     (apply_labelled)
-/

namespace TagLedger

variable {α β : Type} {r : Root} {c : Chat} {id f g : String} {asked : Prop} {x y z : Session}

/-! ## Sessions -/

/-- The definitions of the enabled variables of a suite, none if it is unknown. -/
def Root.enabledIn (r : Root) (suiteId : String) : List Definition :=
  ((Json.find? r.suites suiteId).map r.enabled).getD []

theorem Session.ended_enabledIn (hroot : x.storage.store.root = some r) (suiteId : String) :
    ended (enabledDefinitions suiteId) x = (.ok (r.enabledIn suiteId), x) := by
  have hids : ended (Suites.enabledVariables suiteId) x.storage = (.ok
      (((Json.find? r.suites suiteId).map (·.enabledVariables)).getD []), x.storage) :=
    ended_bind_ok (Suites.ended_find hroot suiteId) _
  refine ended_stored_same ?_
  rw [ended_bind_ok hids, ended_definitionsOf hroot]
  unfold Root.enabledIn
  cases Json.find? r.suites suiteId <;> rfl

/-- Two sessions agree on all that is of use for the chat, but for a label in its values, and their
models answer alike if that is `asked`. What the analyzer remembers may differ. -/
structure Session.Agree (r : Root) (id f g : String) (asked : Prop) (x y : Session) : Prop where
  storage : x.storage.Agree r id f g y.storage
  templates : y.templates = x.templates
  host : y.host = x.host
  endpoint : y.endpoint = x.endpoint
  busy : y.analyzer.busy = x.analyzer.busy
  answers : asked → y.model = x.model ∧ y.line = x.line

namespace Session.Agree

theorem refl (h : x.storage.store.root = some r) : Agree r id f g asked x x :=
  ⟨.refl h, rfl, rfl, rfl, rfl, fun _ => ⟨rfl, rfl⟩⟩

theorem symm (h : Agree r id f f asked x y) : Agree r id f f asked y x :=
  ⟨h.storage.symm, h.templates.symm, h.host.symm, h.endpoint.symm, h.busy.symm,
    fun ha => ⟨(h.answers ha).1.symm, (h.answers ha).2.symm⟩⟩

theorem trans (h : Agree r id f f asked x y) (h' : Agree r id f f asked y z) :
    Agree r id f f asked x z :=
  ⟨h.storage.trans h'.storage, h'.templates.trans h.templates, h'.host.trans h.host,
    h'.endpoint.trans h.endpoint, h'.busy.trans h.busy,
    fun ha => ⟨(h'.answers ha).1.trans (h.answers ha).1, (h'.answers ha).2.trans (h.answers ha).2⟩⟩

theorem relabel {f' g' : String} (h : Agree r id f f asked x y) : Agree r id f' g' asked x y :=
  { h with storage := h.storage.relabel }

end Session.Agree

namespace Couples

open Session (Agree)

theorem stored {act act' : Activity Storage α} {A : α → α → Prop}
    (h : Couples (Storage.Agree r id f g) act act' A) :
    Couples (Agree r id f g asked) (Session.stored act) (Session.stored act') A := fun x y hxy => by
  obtain ⟨hagree, ha⟩ := h x.storage y.storage hxy.storage
  rw [ended_stored, ended_stored]
  exact ⟨{ hxy with storage := hagree }, ha⟩

/-- What the analyzer remembers changes. -/
theorem onAnalyzer {h : Analyzer → Analyzer}
    (hbusy : ∀ a b : Analyzer, b.busy = a.busy → (h b).busy = (h a).busy) :
    Likewise (Agree r id f g asked) (.ofAction (Session.onAnalyzer h)) := .ok fun x y hxy =>
  ⟨(), { x with analyzer := h x.analyzer }, (), { y with analyzer := h y.analyzer }, rfl, rfl, rfl,
    { hxy with busy := hbusy _ _ hxy.busy }⟩

/-! ### Prompts -/

theorem resolve (messages : List Message) (template : String) :
    Likewise (Agree r id f f asked) (Session.resolve id messages template) := .look fun x y h => by
  have hlookup : (fun name => (Variables.lookup? y.storage.store name id).bind (·.2)) =
      fun name => (Variables.lookup? x.storage.store name id).bind (·.2) := by
    unfold Variables.lookup? Store.value? Store.definitions
    rw [h.storage.cached_eq, h.storage.framed.root]
  unfold Session.environment
  rw [hlookup, h.templates]
  exact .ofExcept _ _

theorem itemText (i : Item) : Likewise (Agree r c.id f f asked) (Session.itemText c i) := by
  cases i with
  | prompt p => exact (resolve c.messages p.content).likewise fun _ => .pure rfl
  | chat item =>
    refine .look fun x y h => ?_
    rw [h.templates]
    exact (Couples.ofExcept _ _).likewise fun r => .pure rfl
  | character item =>
    refine .ite (.pure rfl) (.look fun x y h => ?_)
    rw [h.host]
    exact .pure rfl
  | _ => exact .pure rfl

theorem itemTexts (items : List Item) :
    Likewise (Agree r c.id f f asked) (Session.itemTexts c items) := by
  induction items with
  | nil => exact .pure rfl
  | cons i items ih => exact (itemText i).likewise fun _ => ih.likewise fun _ => .pure rfl

theorem prompt (suiteId : String) :
    Likewise (Agree r c.id f f asked) (Session.prompt suiteId c) := by
  have hitems : Likewise (Storage.Agree r c.id f f) (Suites.visibleItems suiteId) :=
    (findSuite suiteId).likewise fun _ => .pure rfl
  exact hitems.stored.likewise fun items => (itemTexts items).likewise fun _ => .pure rfl

theorem enabledDefinitions (suiteId : String) :
    Likewise (Agree r id f g asked) (Session.enabledDefinitions suiteId) := by
  have hids : Likewise (Storage.Agree r id f g) (Suites.enabledVariables suiteId) :=
    (findSuite suiteId).likewise fun _ => .pure rfl
  have hds : Likewise (Storage.Agree r id f g)
      (Suites.enabledVariables suiteId >>= Session.definitionsOf) :=
    hids.likewise fun ids => definitionsOf ids
  exact hds.stored

/-! ### Asking -/

/-- The state changes at once. -/
theorem changed {h : Session → β × Session}
    (hh : ∀ x y, Agree r id f g True x y → (h y).1 = (h x).1 ∧ Agree r id f g True (h x).2 (h y).2) :
    Likewise (Agree r id f g True) (modifyGet h : Activity Session β) := .ok fun x y hxy =>
  ⟨(h x).1, (h x).2, (h y).1, (h y).2, rfl, rfl, hh x y hxy⟩

/-- The model may have to be waited for. -/
theorem gated {p : Prop} [Decidable p] {act : Activity Session α}
    (h : Likewise (Agree r id f g asked) act) :
    Likewise (Agree r id f g asked) (if p then Activity.pause .gate >>= fun _ => act else act) := by
  have hgate : Likewise (Agree r id f g asked) (.pause .gate : Activity Session Unit) :=
    fun _ _ h => ⟨h, rfl⟩
  exact .ite (hgate.likewise fun _ => h) h

theorem askRehearsal (text : String) :
    Likewise (Agree r id f g True) (Session.askRehearsal text) := by
  have hhear : Likewise (Agree r id f g True)
      (modify fun s : Session => { s with model := s.model.hear text }) := changed fun x y h => by
    obtain ⟨hmodel, hline⟩ := h.answers trivial
    exact ⟨rfl, { h with answers := fun _ => ⟨congrArg (·.hear text) hmodel, hline⟩ }⟩
  refine hhear.likewise fun _ => .look fun x y h => ?_
  rw [(h.answers trivial).1]
  refine gated ((changed fun x y h => ?_).likewise fun _ => .pure rfl)
  obtain ⟨hmodel, hline⟩ := h.answers trivial
  rw [hmodel]
  exact ⟨rfl, { h with answers := fun _ => ⟨rfl, hline⟩ }⟩

theorem askEndpoint (client : Completion.Client) (text : String) :
    Likewise (Agree r id f g True) (Session.askEndpoint client text) := by
  refine (changed fun x y h => ?_).likewise fun reply => ?_
  · obtain ⟨hmodel, hline⟩ := h.answers trivial
    rw [hline]
    exact ⟨rfl, { h with answers := fun _ => ⟨hmodel, rfl⟩ }⟩
  · split <;> exact .pure rfl

theorem otherEndpoint : Likewise (Agree r id f g asked) Session.otherEndpoint? := by
  refine .look fun x y h => ?_
  rw [h.endpoint]
  split
  · exact .pure rfl
  · exact settings.stored.likewise fun _ => .pure rfl

/-- A call is noted. -/
theorem noted (note : Option CallLog → Option CallLog) : Likewise (Agree r id f g True)
    (.ofAction (modify fun s : Session => { s with log := note s.log })) := .ok fun x y h =>
  ⟨(), { x with log := note x.log }, (), { y with log := note y.log }, rfl, rfl, rfl, { h with }⟩

/-- What was answered is given after the call was noted. -/
theorem heard (reply : Except Failure String) {note : String → Activity Session Unit}
    {noteFault : CompletionFault → Activity Session Unit}
    (hnote : ∀ t, Likewise (Agree r id f g True) (note t))
    (hfault : ∀ fault, Likewise (Agree r id f g True) (noteFault fault)) :
    Likewise (Agree r id f g True) (match reply with
      | .ok t => do
        note t
        return t
      | .error (.completion fault) => do
        noteFault fault
        MonadExcept.throw (.completion fault)
      | .error e => MonadExcept.throw e) := by
  rcases reply with e | t
  · cases e with
    | completion fault => exact (hfault fault).likewise fun _ => .throw _
    | _ => exact .throw _
  · exact (hnote t).likewise fun _ => .pure rfl

theorem ask (suite : Suite) (chat floors text : String) :
    Likewise (Agree r id f g True) (Session.ask suite chat floors text) := by
  refine otherEndpoint.likewise fun client => ?_
  cases client with
  | some client =>
    refine (askEndpoint client text).likewise fun answered => ?_
    exact heard answered.reply (fun _ => noted _) fun _ => noted _
  | none =>
    refine (askRehearsal text).likewise fun answered => ?_
    exact heard answered.reply (fun _ => noted _) fun _ => noted _

/-- A model that cannot be asked is no failure for either. -/
theorem caught {act : Activity Session α} {R : Session → Session → Prop} (h : Likewise R act) :
    Likewise R (Session.caught act) := by
  let mapped : Activity Session (Except CompletionFault α) := Except.ok <$> act
  have hmapped : Likewise R mapped := h.likewise fun _ => .pure rfl
  refine hmapped.tryCatch fun e => ?_
  cases e with
  | completion fault => exact .pure rfl
  | _ => exact .throw _

/-! ### Analyses -/

theorem analyzeNow (suiteId : String) :
    Likewise (Agree r c.id f f True) (Session.analyzeNow suiteId c) := by
  refine (findSuite suiteId).stored.likewise fun found => ?_
  cases found with
  | none => exact .pure rfl
  | some suite =>
    refine warm.stored.likewise fun _ => (prompt suite.id).likewise fun p => ?_
    refine .ite (.pure rfl) ?_
    refine likewise (x := Activity.ofAction _) (onAnalyzer fun _ _ h => h) fun _ => ?_
    refine (enabledDefinitions suiteId).likewise fun ds => .ite (.pure rfl) ?_
    refine (caught (ask suite c.id p.2 _)).likewise fun reply => ?_
    cases reply with
    | error fault => exact .pure rfl
    | ok response =>
      exact likewise (x := Activity.ofAction _) (onAnalyzer fun _ _ h => h) fun _ => .pure rfl

theorem analyze (suiteId : String) :
    Likewise (Agree r c.id f f True) (Session.analyze suiteId c) := by
  refine .look fun x y h => ?_
  rw [h.busy]
  refine .ite (.pure rfl) ?_
  refine likewise (x := Activity.ofAction _) (onAnalyzer fun _ _ _ => rfl) fun _ => ?_
  exact (analyzeNow suiteId).ensuring (onAnalyzer fun _ _ _ => rfl)

/-- Contents are stored twice, each time under a label. -/
theorem assign (hf : f ≠ "") (hg : g ≠ "") (results : List Tagged) :
    Couples (Agree r id f g asked) (Session.assign id f results) (Session.assign id g results)
      fun a b => b = a := by
  induction results with
  | nil => exact .pure rfl
  | cons p results ih =>
    refine (assignOne hf hg p).stored.bind fun a b hb => ?_
    exact ih.bind fun m n hn => .pure (by rw [hb, hn])

theorem run (suiteId : String) : Likewise (Agree r c.id f f True) (Session.run suiteId c) := by
  refine (analyze suiteId).likewise fun result => .ite (.pure rfl) ?_
  have hlabel : (if result.floors = "" then Text.intText c.length else result.floors) ≠ "" := by
    split
    · exact Session.intText_ne _
    · assumption
  have hassign : Likewise (Agree r c.id f f True) (Session.assign c.id
      (if result.floors = "" then Text.intText c.length else result.floors) result.results) :=
    fun x y h => by
      obtain ⟨hagree, hn⟩ := assign hlabel hlabel result.results x y h.relabel
      exact ⟨hagree.relabel, hn⟩
  exact hassign.likewise fun _ => .pure rfl

end Couples

/-! ## An analysis of another chat -/

theorem Meets.caught {I : Session → Prop} {act : Activity Session α}
    (h : Meets I I act fun _ => I) : Meets I I (Session.caught act) fun _ => I := by
  let mapped : Activity Session (Except CompletionFault α) := Except.ok <$> act
  have hmapped : Meets I I mapped fun _ => I := h.bind fun _ => .pure fun _ hx => hx
  refine hmapped.tryCatch fun e => ?_
  cases e with
  | completion fault => exact .pure fun _ hx => hx
  | _ => exact .throw _ fun _ hx => hx

namespace Session.Agree

/-- Whatever is done to a session leaves it agreeing with `x`. -/
abbrev Lasts (r : Root) (id f g : String) (x : Session) (act : Activity Session α) : Prop :=
  Meets (Agree r id f g False x) (Agree r id f g False x) act fun _ => Agree r id f g False x

namespace Lasts

theorem stored {act : Activity Storage α} (h : Storage.Agree.Lasts r id f g x.storage act) :
    Lasts r id f g x (Session.stored act) := Meets.iff_left.mpr fun y hy => by
  rw [ended_stored]
  exact { hy with storage := Meets.iff_left.mp h y.storage hy.storage }

theorem onAnalyzer {h : Analyzer → Analyzer} (hbusy : ∀ a : Analyzer, (h a).busy = a.busy) :
    Lasts r id f g x (.ofAction (Session.onAnalyzer h)) := .ok fun y hy =>
  ⟨(), { y with analyzer := h y.analyzer }, rfl, { hy with busy := (hbusy _).trans hy.busy }⟩

/-- Something is only looked at. -/
theorem ofSame {act : Activity Session α}
    (h : ∀ y : Session, y.storage.store.root = some r → (ended act y).2 = y) :
    Lasts r id f g x act := Meets.iff_left.mpr fun y hy => (h y hy.storage.right).symm ▸ hy

theorem prompt (suiteId : String) (c : Chat) : Lasts r id f g x (Session.prompt suiteId c) :=
  ofSame fun y hroot => by
    obtain ⟨a, ha⟩ := Glances.prompt hroot suiteId c
    rw [show ended (Session.prompt suiteId c) y = (a, y) from ha y.analyzer]

theorem enabledDefinitions (suiteId : String) :
    Lasts r id f g x (Session.enabledDefinitions suiteId) :=
  ofSame fun y hroot => by rw [ended_enabledIn hroot]

theorem ask (suite : Suite) (chat floors text : String) :
    Lasts r id f g x (Session.ask suite chat floors text) := Meets.iff_left.mpr fun y hy => by
  obtain ⟨model, line, log, hask⟩ := ended_ask hy.storage.right suite chat floors text
  rw [hask]
  exact { hy with answers := False.elim }

variable (hne : c.id ≠ id)

include hne

theorem analyzeNow (suiteId : String) : Lasts r id f g x (Session.analyzeNow suiteId c) := by
  have hfind : Lasts r id f g x (Session.stored (Suites.find? suiteId)) := ofSame fun y hroot => by
    rw [ended_stored_same (Suites.ended_find hroot suiteId)]
  refine hfind.bind fun found => ?_
  cases found with
  | none => exact .pure fun _ hy => hy
  | some suite =>
    refine (stored (.warm hne)).bind fun _ => (prompt suite.id c).bind fun p => ?_
    refine .ite (.pure fun _ hy => hy) ?_
    refine Meets.bind (x := Activity.ofAction _) (onAnalyzer fun _ => rfl) fun _ => ?_
    refine (enabledDefinitions suiteId).bind fun ds => .ite (.pure fun _ hy => hy) ?_
    refine (Meets.caught (ask suite c.id p.2 _)).bind fun reply => ?_
    cases reply with
    | error fault => exact .pure fun _ hy => hy
    | ok response =>
      exact Meets.bind (x := Activity.ofAction _) (onAnalyzer fun _ => rfl) fun _ =>
        .pure fun _ hy => hy

theorem assign (floors : String) (results : List Tagged) :
    Lasts r id f g x (Session.assign c.id floors results) := by
  induction results with
  | nil => exact .pure fun _ hy => hy
  | cons p results ih =>
    exact (stored (.assignOne hne floors p)).bind fun _ => ih.bind fun _ => .pure fun _ hy => hy

theorem analyze (suiteId : String) : Lasts r id f g x (Session.analyze suiteId c) :=
  Meets.iff_left.mpr fun y hy => by
    unfold Session.analyze
    rw [ended_get_bind]
    cases hbusy : y.analyzer.busy with
    | true => exact hy
    | false =>
      let begun (z : Session) : Session := { z with analyzer := { z.analyzer with busy := true } }
      have hbegin : ended (Activity.ofAction
          (Session.onAnalyzer fun a => { a with busy := true })) y = (.ok (), begun y) := rfl
      have hbegun : Agree r id f g False (begun x) (begun y) := { hy with busy := rfl }
      have hafter := Meets.iff_left.mp (analyzeNow hne suiteId) (begun y) hbegun
      rw [if_neg (by decide)]
      refine (congrArg (fun p : _ × Session => Agree r id f g False x p.2)
        (ended_bind_ok hbegin _)).mpr ?_
      rw [ended_ensuring]
      exact { hafter with busy := hbusy.symm.trans hy.busy }

theorem run (suiteId : String) : Lasts r id f g x (Session.run suiteId c) := by
  refine (analyze hne suiteId).bind fun result => .ite (.pure fun _ hy => hy) ?_
  exact (assign hne _ result.results).bind fun _ => .pure fun _ hy => hy

end Lasts

end Session.Agree

/-! ## Histories -/

/-- An analysis of a chat whose results are stored or not, and how the model answers in it. -/
structure Inquiry where
  suiteId : String
  chat : Chat
  stores : Bool
  model : Completion.Rehearsal
  line : Completion.Line

namespace Inquiry

variable {i : Inquiry}

def perform (i : Inquiry) : Activity Session AnalysisResult :=
  if i.stores then Session.run i.suiteId i.chat else Session.analyze i.suiteId i.chat

/-- The session with the model that answers in the analysis. -/
def faced (i : Inquiry) (x : Session) : Session := { x with model := i.model, line := i.line }

/-- What the session comes to, whatever becomes of the analysis. -/
def after (i : Inquiry) (x : Session) : Session := (ended i.perform (i.faced x)).2

/-- An analysis of the chat does the same in both sessions. -/
theorem agree_after (hi : i.chat.id = id) (h : Session.Agree r id f f False x y) :
    Session.Agree r id f f False (i.after x) (i.after y) := by
  subst hi
  have hperform : Likewise (Session.Agree r i.chat.id f f True) i.perform :=
    .ite (.run i.suiteId) (.analyze i.suiteId)
  obtain ⟨hafter, -⟩ := hperform (i.faced x) (i.faced y) { h with answers := fun _ => ⟨rfl, rfl⟩ }
  exact { hafter with answers := False.elim }

/-- An analysis of another chat makes no difference. -/
theorem agree_aside (hi : i.chat.id ≠ id) (h : Session.Agree r id f f False x y) :
    Session.Agree r id f f False x (i.after y) := by
  have hperform : Session.Agree.Lasts r id f f x i.perform :=
    .ite (Session.Agree.Lasts.run hi i.suiteId) (Session.Agree.Lasts.analyze hi i.suiteId)
  exact Meets.iff_left.mp hperform _ { h with answers := False.elim }

end Inquiry

/-- What the session comes to that is asked for one analysis after another. -/
def Session.inquired (x : Session) (history : List Inquiry) : Session :=
  history.foldl (fun x i => i.after x) x

/-- Only the analyses of a chat count for it. -/
theorem Session.Agree.inquired (history : List Inquiry) (h : Agree r id f f False x y) :
    Agree r id f f False (x.inquired (history.filter (·.chat.id = id))) (y.inquired history) := by
  induction history generalizing x y with
  | nil => exact h
  | cons i history ih =>
    by_cases hi : i.chat.id = id
    · rw [List.filter_cons_of_pos (by simpa using hi)]
      exact ih (i.agree_after hi h)
    · rw [List.filter_cons_of_neg (by simpa using hi)]
      exact ih (i.agree_aside hi h)

/-! ## Before the root is loaded -/

/-- The root is loaded in `y`, and that is the only thing that happened since `x`. -/
def Session.Opens (x y : Session) : Prop :=
  ∃ r s, ended Storage.load x.storage = (.ok r, s) ∧ y = { x with storage := s }

namespace Session.Opens

theorem find (h : Opens x y) (suiteId : String) :
    ended (Suites.find? suiteId) y.storage = ended (Suites.find? suiteId) x.storage := by
  obtain ⟨r, s, hload, rfl⟩ := h
  have hloaded := Storage.ended_load_some (Storage.root_of_load hload)
  exact ended_bind_congr (ended_bind_congr (hloaded.trans hload.symm) _) _

theorem stored {act : Activity Storage α} (h : Opens x y)
    (hact : ended act y.storage = ended act x.storage) :
    ended (Session.stored act) y = ended (Session.stored act) x := by
  obtain ⟨r, s, -, rfl⟩ := h
  rw [ended_stored, ended_stored, hact]

/-- An analysis that is not rejected begins with the root. -/
theorem analyze (h : Opens x y) (hidle : x.analyzer.busy = false) (suiteId : String) (c : Chat) :
    ended (Session.analyze suiteId c) y = ended (Session.analyze suiteId c) x := by
  let begun (z : Session) : Session := { z with analyzer := { z.analyzer with busy := true } }
  have hbegin (z : Session) : ended (Activity.ofAction
      (onAnalyzer fun a => { a with busy := true })) z = (.ok (), begun z) := rfl
  have hbegun : Opens (begun x) (begun y) := by
    obtain ⟨r, s, hload, rfl⟩ := h
    exact ⟨r, s, hload, rfl⟩
  have hnow : ended (analyzeNow suiteId c) (begun y) = ended (analyzeNow suiteId c) (begun x) :=
    ended_bind_congr (hbegun.stored (hbegun.find suiteId)) _
  have hidle' : y.analyzer.busy = false := by
    obtain ⟨r, s, -, rfl⟩ := h
    exact hidle
  unfold Session.analyze
  rw [ended_get_bind, ended_get_bind, hidle, hidle', if_neg (by decide)]
  refine (ended_bind_ok (hbegin y) _).trans (Eq.trans ?_ (ended_bind_ok (hbegin x) _).symm)
  rw [ended_ensuring, ended_ensuring, hnow]

theorem apply (h : Opens x y) (content suiteId chat : String) (length : Int) :
    ended (Session.apply content suiteId chat length) y =
      ended (Session.apply content suiteId chat length) x := by
  refine ended_bind_congr (h.stored (ended_bind_congr ?_ _)) _
  exact ended_bind_congr (h.find suiteId) _

end Session.Opens

/-- Two sessions are the same, or are once the root is loaded. -/
def Session.Meeting (x y : Session) : Prop := y = x ∨ x.Opens y

namespace Session.Meeting

theorem after {i : Inquiry} (h : Meeting x y) : Meeting (i.after x) (i.after y) := by
  rcases h with rfl | h
  · exact Or.inl rfl
  have hfaced : Opens (i.faced x) (i.faced y) := by
    obtain ⟨r, s, hload, rfl⟩ := h
    exact ⟨r, s, hload, rfl⟩
  cases hbusy : x.analyzer.busy with
  | false =>
    have hanalyze := hfaced.analyze hbusy i.suiteId i.chat
    refine Or.inl (congrArg Prod.snd ?_)
    unfold Inquiry.perform
    split
    · exact ended_bind_congr hanalyze _
    · exact hanalyze
  | true =>
    have hrejected {z : Session} (hz : z.analyzer.busy = true) : (ended i.perform z).2 = z := by
      have hanalyze : ended (analyze i.suiteId i.chat) z = (.ok (.failed .busy ""), z) := by
        unfold Session.analyze
        rw [ended_get_bind, if_pos hz]
        rfl
      unfold Inquiry.perform
      split
      · rw [ended_run_failed hanalyze rfl]
      · rw [hanalyze]
    have hbusy' : y.analyzer.busy = true := by
      obtain ⟨r, s, -, rfl⟩ := h
      exact hbusy
    unfold Inquiry.after
    rw [hrejected (z := i.faced x) hbusy, hrejected (z := i.faced y) hbusy']
    exact Or.inr hfaced

theorem inquired (history : List Inquiry) (h : Meeting x y) :
    Meeting (x.inquired history) (y.inquired history) := by
  induction history generalizing x y with
  | nil => exact h
  | cons i history ih => exact ih h.after

theorem analyzer (h : Meeting x y) : y.analyzer = x.analyzer := by
  rcases h with rfl | ⟨r, s, -, rfl⟩
  · rfl
  · rfl

theorem apply (h : Meeting x y) (content suiteId chat : String) (length : Int) :
    ended (Session.apply content suiteId chat length) y =
      ended (Session.apply content suiteId chat length) x := by
  rcases h with rfl | h
  · rfl
  · exact h.apply content suiteId chat length

end Session.Meeting

/-! ## Replies given by hand -/

/-- The floors that a reply is stored under that is given by hand. -/
def Session.label (x : Session) (length : Int) : String :=
  match x.analyzer.lastFloors with
  | some floors => if floors = "" then Text.intText length else floors
  | none => Text.intText length

theorem Session.label_ne (x : Session) (length : Int) : x.label length ≠ "" := by
  unfold Session.label
  split
  · split
    · exact intText_ne _
    · assumption
  · exact intText_ne _

/-- What was read in a reply is stored under a label. -/
def Session.applyRead (content chat label : String) (results : List Tagged) :
    Activity Session Application := do
  let n ← assign chat label results
  onAnalyzer fun a => { a with lastResponse := some content, lastResults := some results }
  return .ok n

theorem Session.ended_apply (hroot : x.storage.store.root = some r)
    (content suiteId chat : String) (length : Int) :
    ended (Session.apply content suiteId chat length) x =
      if (r.enabledIn suiteId).isEmpty then (.ok (.error .noVariables), x)
      else if (parseReply content (r.enabledIn suiteId)).isEmpty then (.ok (.ok 0), x)
      else ended (applyRead content chat (x.label length)
        (parseReply content (r.enabledIn suiteId))) x := by
  unfold Session.apply
  rw [ended_bind_ok (ended_enabledIn hroot suiteId)]
  dsimp only
  split
  · rfl
  split
  · rfl
  · unfold applyRead Session.label
    exact ended_get_bind _ x

/-! ### The label of an analysis -/

section Label

variable {suiteId text floors : String} {suite : Suite} (hroot : x.storage.store.root = some r)
  (hidle : x.analyzer.busy = false) (h : x.Renders r suiteId c suite text floors) (htext : text ≠ "")

include hroot hidle h htext

theorem Session.lastFloors_analyze :
    (ended (analyze suiteId c) x).2.analyzer.lastFloors = some floors := by
  let I (y : Session) : Prop :=
    y.storage.store.root = some r ∧ y.analyzer.lastFloors = some floors
  have hask (text : String) : Meets I I (ask suite c.id floors text) fun _ => I :=
    Meets.iff_left.mpr fun y hy => by
      obtain ⟨model, line, log, hrun⟩ := ended_ask hy.1 suite c.id floors text
      rw [hrun]
      exact hy
  have hfrom : Meets I I (analyzeFrom suite c text floors (r.enabled suite)) fun _ => I := by
    refine .ite (.pure fun _ hy => hy) ((hask _).caught.bind fun reply => ?_)
    cases reply with
    | error fault => exact .pure fun _ hy => hy
    | ok response =>
      exact Meets.bind (x := Activity.ofAction _) (Q := fun _ => I) (fun _ hy => hy) fun _ =>
        .pure fun _ hy => hy
  obtain ⟨hlooks, -⟩ := ended_warm hroot c.id
  have hread : ended (Storage.loadValues c.id) x.storage = (.ok (x.storage.serves r c.id), _) :=
    Prod.ext (Storage.loadValues_answer hroot c.id) rfl
  rw [ended_analyze_from hroot hidle hread h htext rfl]
  exact (Meets.iff_left.mp hfrom _ ⟨hlooks.root, rfl⟩).2

end Label

/-- An analysis whose prompt is a text leaves its floors as the label for every chat. -/
theorem Inquiry.label_after {i : Inquiry} {text floors : String} {suite : Suite}
    (hroot : x.storage.store.root = some r) (hidle : x.analyzer.busy = false)
    (h : (i.faced x).Renders r i.suiteId i.chat suite text floors) (htext : text ≠ "")
    (length : Int) : (i.after x).label length = floors := by
  let I (y : Session) : Prop := y.analyzer.lastFloors = some floors
  have hanalyze : Meets I (· = i.faced x) (Session.analyze i.suiteId i.chat) fun _ => I :=
    Meets.iff_left.mpr fun y hy => hy ▸ Session.lastFloors_analyze hroot hidle h htext
  have hassign (label : String) (results : List Tagged) :
      Meets I I (Session.assign i.chat.id label results) fun _ => I := by
    induction results with
    | nil => exact .pure fun _ hy => hy
    | cons p results ih =>
      have hone : Meets I I (Session.stored (Session.assignOne i.chat.id label p)) fun _ => I :=
        Meets.iff_left.mpr fun y hy => by rwa [ended_stored]
      exact hone.bind fun _ => ih.bind fun _ => .pure fun _ hy => hy
  have hperform : Meets I (· = i.faced x) i.perform fun _ => I := by
    refine .ite (hanalyze.bind fun result => .ite (.pure fun _ hy => hy) ?_) hanalyze
    exact (hassign _ result.results).bind fun _ => .pure fun _ hy => hy
  have hlast : (i.after x).analyzer.lastFloors = some floors :=
    Meets.iff_left.mp hperform (i.faced x) rfl
  unfold Session.label
  rw [hlast]
  exact if_neg h.floors_ne

/-! ### What is stored -/

/-- Whether and how much of a reply is stored is the same in sessions that agree on the chat; it is
stored under the label of each. -/
theorem Session.Agree.apply (h : Agree r id f f False x y) (content suiteId : String)
    (length : Int) :
    (ended (Session.apply content suiteId id length) y).1 =
        (ended (Session.apply content suiteId id length) x).1 ∧
      (ended (Session.apply content suiteId id length) x).2.storage.Agree r id
        (x.label length) (y.label length)
        (ended (Session.apply content suiteId id length) y).2.storage := by
  have hread (results : List Tagged) : Couples (Agree r id (x.label length) (y.label length) False)
      (applyRead content id (x.label length) results)
      (applyRead content id (y.label length) results) fun a b => b = a := by
    refine (Couples.assign (x.label_ne length) (y.label_ne length) results).bind fun m n hn => ?_
    refine Couples.likewise (x := Activity.ofAction _) (.onAnalyzer fun _ _ h => h) fun _ => ?_
    exact .pure (congrArg Except.ok hn)
  rw [ended_apply h.storage.root, ended_apply h.storage.right]
  split
  · exact ⟨rfl, h.storage.relabel⟩
  split
  · exact ⟨rfl, h.storage.relabel⟩
  · exact ⟨(hread _).same h.relabel, ((hread _) x y h.relabel).1.storage⟩

/-- Analyses of other chats make no difference to what a reply that is given by hand stores in a
chat, but for the label that it is stored under. -/
theorem apply_labelled {x : Session} {r : Root} {s : Storage} {id : String}
    {history history' : List Inquiry} (hload : ended Storage.load x.storage = (.ok r, s))
    (hsame : history'.filter (·.chat.id = id) = history.filter (·.chat.id = id))
    (content suiteId : String) (length : Int) :
    let before := x.inquired history
    let before' := x.inquired history'
    let after := ended (Session.apply content suiteId id length) before
    let after' := ended (Session.apply content suiteId id length) before'
    after'.1 = after.1 ∧ ∃ vs vs',
      (ended (Storage.loadValues id) after.2.storage).1 = .ok vs ∧
      (ended (Storage.loadValues id) after'.2.storage).1 = .ok vs' ∧
      ChatValues.Relabels (before.label length) (before'.label length) vs vs' ∧
      (before'.label length = before.label length → vs' = vs) := by
  intro before before' after after'
  let opened : Session := { x with storage := s }
  have hopened : opened.storage.store.root = some r := Storage.root_of_load hload
  have hmeeting (h : List Inquiry) : (x.inquired h).Meeting (opened.inquired h) :=
    Session.Meeting.inquired h (Or.inr ⟨r, s, hload, rfl⟩)
  have hhistory (h : List Inquiry) :
      Session.Agree r id "" "" False (opened.inquired (h.filter (·.chat.id = id)))
        (opened.inquired h) := (Session.Agree.refl hopened).inquired h
  have hagree : Session.Agree r id "" "" False (opened.inquired history) (opened.inquired history') :=
    (hhistory history).symm.trans (hsame ▸ hhistory history')
  obtain ⟨hanswer, hafter⟩ := hagree.apply content suiteId length
  have hlabel (h : List Inquiry) : (opened.inquired h).label length = (x.inquired h).label length := by
    unfold Session.label
    rw [(hmeeting h).analyzer]
  rw [hlabel, hlabel, (hmeeting history).apply, (hmeeting history').apply] at hafter
  rw [(hmeeting history).apply, (hmeeting history').apply] at hanswer
  refine ⟨hanswer, _, _, Storage.loadValues_answer hafter.root id,
    Storage.loadValues_answer hafter.right id, hafter.serves, fun hequal => ?_⟩
  have hserves := hafter.serves
  rw [hequal] at hserves
  exact hserves.eq

/-- A chat without messages is analysed, and the model has nothing to say. -/
def Inquiry.vain : Inquiry :=
  ⟨"suite_0b63ci", ⟨"d", [], none⟩, false, .ofReplies [.text "nothing"], ⟨[], []⟩⟩

/-- A chat of three messages is given a reply by hand, before which another chat is analysed in the
one history and not in the other: it is stored as the floor of that chat, or as the third. -/
theorem apply_labelled_vain : ∃ (x : Session) (r : Root) (s : Storage),
    ended Storage.load x.storage = (.ok r, s) ∧
      [Inquiry.vain].filter (·.chat.id = "c") = [].filter (·.chat.id = "c") ∧
      (x.inquired []).label 3 = "3" ∧ (x.inquired [.vain]).label 3 = "0" ∧
      let after := ended (Session.apply "[log]one[/log]" "suite_0b63ci" "c" 3) (x.inquired [])
      let after' := ended (Session.apply "[log]one[/log]" "suite_0b63ci" "c" 3) (x.inquired [.vain])
      after'.1 = after.1 ∧ ∃ vs vs',
        (ended (Storage.loadValues "c") after.2.storage).1 = .ok vs ∧
        (ended (Storage.loadValues "c") after'.2.storage).1 = .ok vs' ∧
        ChatValues.Relabels "3" "0" vs vs' ∧
        vs = [("var_0qyxjj", .stack ⟨[⟨1, "one", "3", 0, false⟩], 2⟩)] ∧
        vs' = [("var_0qyxjj", .stack ⟨[⟨1, "one", "0", 0, false⟩], 2⟩)] := by
  have hsome : (Session.asking []).storage.store.root.isSome = true := by decide +kernel
  obtain ⟨r, hr⟩ := Option.isSome_iff_exists.mp hsome
  have hload := Storage.ended_load_some hr
  have hlabel : ((Session.asking []).inquired []).label 3 = "3" := by decide +kernel
  have hlabel' : ((Session.asking []).inquired [.vain]).label 3 = "0" := by decide +kernel
  have hread : (ended (Storage.loadValues "c") (ended (Session.apply "[log]one[/log]" "suite_0b63ci"
      "c" 3) ((Session.asking []).inquired [])).2.storage).1 =
        .ok [("var_0qyxjj", .stack ⟨[⟨1, "one", "3", 0, false⟩], 2⟩)] := by decide +kernel
  have hread' : (ended (Storage.loadValues "c") (ended (Session.apply "[log]one[/log]" "suite_0b63ci"
      "c" 3) ((Session.asking []).inquired [.vain])).2.storage).1 =
        .ok [("var_0qyxjj", .stack ⟨[⟨1, "one", "0", 0, false⟩], 2⟩)] := by decide +kernel
  obtain ⟨hanswer, vs, vs', hvs, hvs', hrelabels, -⟩ :=
    @apply_labelled (.asking []) r _ "c" [] [.vain] hload rfl "[log]one[/log]" "suite_0b63ci" 3
  rw [hlabel, hlabel'] at hrelabels
  refine ⟨.asking [], r, (Session.asking []).storage, hload, rfl, hlabel, hlabel', hanswer, vs, vs',
    hvs, hvs', hrelabels, ?_, ?_⟩
  · rw [hread] at hvs
    exact (Except.ok.inj hvs).symm
  · rw [hread'] at hvs'
    exact (Except.ok.inj hvs').symm

end TagLedger
