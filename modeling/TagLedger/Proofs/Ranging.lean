import TagLedger.Proofs.Upholding
import TagLedger.Service.Server

/-!
# Ranges that are of use

A rule for the floors of a chat is of use if it passes the check without a length. Whoever asks the
service for something, other than to patch a suite or an item, leaves every chat item with a rule
that is of use: the rule of a new item is checked, and nothing else puts one in.

    a rule that is of use for some chat is of use                        (RangeRule.useful_of)
    every endpoint but two keeps all ranges of use                       (Service.careful_endpoints)
-/

namespace TagLedger

open Schema (yields_map yields_seq_any yields_record)
open Storage (Furnished)

/-! ## Rules -/

namespace RangeRule

/-- Nothing is said against the rule while the length of the chat is unknown. -/
def Useful (r : RangeRule) : Prop := r.problem? none = none

instance : DecidablePred Useful := fun r => inferInstanceAs (Decidable (r.problem? none = none))

theorem firstFailing_eq_none {tests : List (Bool × Problem)} :
    firstFailing tests = none ↔ ∀ t ∈ tests, t.1 = false := by
  unfold firstFailing
  rw [Option.map_eq_none_iff, List.find?_eq_none]
  simp only [Bool.not_eq_true]

theorem beyond_none (p : ChatLength → Bool) : beyond none p = false := rfl

/-- A rule that is of use for some chat is of use. -/
theorem useful_of {r : RangeRule} {length : Option ChatLength} (h : r.problem? length = none) :
    r.Useful := by
  unfold problem? at h
  split at h
  · cases h
  unfold Useful problem?
  rw [beyond_none, if_neg Bool.false_ne_true]
  cases hkind : r.kind with
  | fixed =>
    simp only [hkind, firstFailing_eq_none, List.forall_mem_cons, beyond_none] at h ⊢
    obtain ⟨hstart, -, -, hstop, hnil⟩ := h
    refine ⟨hstart, trivial, trivial, ?_, hnil⟩
    -- Without a last floor of its own the rule ends where the chat does.
    rcases hs : r.stop with _ | n
    · rfl
    · by_cases hn : n = 0
      · simp only [hn, if_true, beyond_none]
      · simpa only [hs, if_neg hn] using hstop
  | latest => simpa only [hkind] using h
  | relative =>
    simp only [hkind, firstFailing_eq_none, List.forall_mem_cons, beyond_none] at h ⊢
    exact ⟨h.1, h.2.1, trivial, h.2.2.2⟩
  | interval =>
    simp only [hkind, firstFailing_eq_none, List.forall_mem_cons, beyond_none] at h ⊢
    exact ⟨h.1, trivial, h.2.2⟩
  | percentage => simpa only [hkind] using h
  | exclude =>
    simp only [hkind, firstFailing_eq_none, List.forall_mem_cons, beyond_none] at h ⊢
    exact ⟨h.1, h.2.1, trivial, h.2.2.2⟩
  | unknown name =>
    rw [hkind] at h
    cases h

theorem useful_standard : Useful .standard := by decide

end RangeRule

/-- The item is no chat item, or its rule is of use. -/
def Item.Usable : Item → Prop
  | .chat c => c.range.Useful
  | _ => True

instance : DecidablePred Item.Usable
  | .chat c => inferInstanceAs (Decidable c.range.Useful)
  | .prompt _ | .variable _ | .character _ => isTrue trivial

/-- All items are usable. -/
def Ranged (items : List Item) : Prop := ∀ i ∈ items, i.Usable

/-! ## Operations -/

/-- The operation gives neither a suite nor an item new values, and no useless rule to an item. -/
def SuiteOperation.Careful : SuiteOperation → Prop
  | .update _ _ | .updateItem _ _ _ => False
  | .addChat _ _ range _ _ _ => (range.getD .standard).Useful
  | _ => True

theorem Brings.usable {now : Int} {r : Root} {op : SuiteOperation} {i : Item}
    (h : Brings now r op i) (hop : op.Careful) : i.Usable := by
  cases h with
  | given => exact hop.elim
  | edited => exact hop.elim
  | added hadds =>
    cases hadds with
    | chat => exact hop
    | _ => exact trivial

namespace Ranged

theorem nil : Ranged [] := fun _ hi => absurd hi List.not_mem_nil

theorem kept_unslotted : KeptUnslotted Ranged :=
  fun _ _ h i hi => h i (List.mem_of_mem_filter hi)

/-- After an operation that brings in usable items only, all items are usable that were before. -/
theorem ofItemsAfter {r : Root} {now : Int} {op : SuiteOperation} {items : List Item}
    (h : ItemsAfter now r op items) (hr : ∀ x ∈ r.suites, Ranged x.2.items)
    (hop : ∀ i, Brings now r op i → i.Usable) : Ranged items := fun i hi => by
  rcases h.mem hi with ⟨x, hx, hmem⟩ | hbrings
  · exact hr x hx i hmem
  · exact hop i hbrings

/-- A careful operation keeps all items usable. -/
theorem ofComposes {α : Type} {x : Activity Storage α} {op : SuiteOperation}
    (hx : ∀ r now, Composes r now op x) (hop : op.Careful) : Keeps (Always (Furnished Ranged)) x :=
  Furnished.ofComposes hx fun _ _ _ hr hitems => ofItemsAfter hitems hr fun _ h => h.usable hop

end Ranged

/-! ## Endpoints -/

namespace Service

variable {α β : Type} {x : Serving α}

/-- What an endpoint does keeps all items usable. -/
def Tends (x : Serving α) : Prop := Furnishes Ranged x.run

namespace Tends

theorem pure (a : α) : Tends (pure a : Serving α) := Upholds.pure _

theorem throw (p : Problem) : Tends (throw p : Serving α) := Upholds.pure _

/-- What would come after a problem is not done. -/
theorem throwThen (p : Problem) (f : α → Serving β) :
    Tends (MonadExcept.throw p >>= f) := fun _ hs => .done hs

theorem bind {f : α → Serving β} (hx : Tends x) (hf : ∀ a, Tends (f a)) : Tends (x >>= f) :=
  Upholds.bind hx fun r => by
    cases r with
    | ok a => exact hf a
    | error p => exact Upholds.pure _

theorem ite {c : Prop} [Decidable c] {y : Serving α} (hx : Tends x) (hy : Tends y) :
    Tends (if c then x else y) := by
  split
  · exact hx
  · exact hy

theorem served {x : Activity Session α} (hx : Furnishes Ranged x) : Tends (served x) := hx.map _

theorem stored {x : Activity Storage α} (hx : Keeps (Always (Furnished Ranged)) x) :
    Tends (stored x) := served (Furnished.tended.stored hx)

theorem look : Tends (Service.served get) := served fun _ hs => .done hs

/-- A change of the session that leaves the storage alone. -/
theorem modify {f : Session → Session} (h : ∀ s, (f s).storage = s.storage) :
    Tends (Service.served (modify f)) := served (.modify h)

theorem unwrap {x : Activity Storage (Outcome α)} (hx : Keeps (Always (Furnished Ranged)) x) :
    Tends (unwrap x) := (stored hx).bind fun r => by
  split
  · exact pure _
  · exact throw _

theorem require (p : Problem) {x : Activity Storage (Option α)}
    (hx : Keeps (Always (Furnished Ranged)) x) : Tends (require p x) :=
  (stored hx).bind fun r => by
    split
    · exact pure _
    · exact throw _

theorem ensure (p : Problem) {x : Serving Bool} (hx : Tends x) : Tends (ensure p x) :=
  hx.bind fun _ => .ite (throw _) (pure _)

/-! ### Variables -/

theorem variableOf (id : String) : Tends (variableOf id) :=
  require _ (Furnished.pieces.definitions.bind fun _ => .pure _)

theorem ofMode (mode : Mode) (id : String) : Tends (ofMode mode id) := by
  refine (variableOf id).bind fun d => ?_
  split
  · exact throwThen _ _
  · exact pure d

theorem listVariables : Tends listVariables :=
  (stored (Furnished.pieces.definitions.bind fun _ => .pure _)).bind fun _ => pure _

theorem createVariable (name tag mode : String) : Tends (createVariable name tag mode) :=
  (unwrap (Furnished.createVariable _ _ _)).bind fun _ => pure _

theorem renameVariable (id : String) (name : Option String) : Tends (renameVariable id name) :=
  (unwrap (Furnished.renameVariable id name)).bind fun _ => pure _

theorem deleteVariable (id : String) : Tends (deleteVariable id) := look.bind fun s =>
  (unwrap (Furnished.deleteVariable Ranged.nil Ranged.kept_unslotted s.linked id)).bind
    fun _ => pure _

/-! ### Values -/

/-- What is put together from activities that keep all items usable keeps them so. -/
theorem composed : Compositional fun _ x => Keeps (Always (Furnished Ranged)) x := .keeps

theorem loads (chat : String) : Keeps (Always (Furnished Ranged)) (Storage.loadValues chat) :=
  Furnished.pieces.loadValues trivial

theorem edits (id chat : String) (v : Value) :
    Keeps (Always (Furnished Ranged)) (Storage.editValue id chat v) :=
  Furnished.pieces.editValue trivial trivial v

theorem showValue (chat id : String) : Tends (showValue chat id) := by
  refine (variableOf id).bind fun _ => ?_
  refine (stored (composed.getValue (loads chat) id)).bind fun _ => ?_
  exact (stored (composed.text (loads chat) Furnished.pieces.load id)).bind fun _ => pure _

theorem addEntry (chat id content floors : String) : Tends (addEntry chat id content floors) :=
  (ofMode .stack id).bind fun _ =>
    (stored (composed.addEntry (loads chat) (fun _ => edits id chat _) content floors)).bind
      fun _ => pure _

theorem updateEntry (chat id : String) (entry : Int) (content : String) :
    Tends (updateEntry chat id entry content) :=
  (unwrap (composed.changeEntry (loads chat) (fun _ => edits id chat _) entry _)).bind
    fun _ => pure _

theorem deleteEntry (chat id : String) (entry : Int) : Tends (deleteEntry chat id entry) :=
  (unwrap (composed.deleteEntry (loads chat) (fun _ => edits id chat _) entry)).bind
    fun _ => pure _

theorem toggleEntry (chat id : String) (entry : Int) : Tends (toggleEntry chat id entry) :=
  (unwrap (composed.toggleEntry (loads chat) (fun _ => edits id chat _) entry)).bind
    fun _ => pure _

theorem reorderEntries (chat id : String) (order : List Int) :
    Tends (reorderEntries chat id order) :=
  (unwrap (composed.reorderEntries (loads chat) (fun _ => edits id chat _) order)).bind
    fun _ => pure _

theorem putContent (chat id content floors : String) :
    Tends (putContent chat id content floors) :=
  (ofMode .replace id).bind fun _ =>
    (stored (composed.put (loads chat) (fun _ => edits id chat _) content floors)).bind
      fun _ => pure _

theorem navigate (chat id direction : String) : Tends (navigate chat id direction) := by
  refine (ofMode .replace id).bind fun _ => ?_
  refine (unwrap (composed.navigate (loads chat) (fun _ => edits id chat _) direction)).bind
    fun _ => ?_
  exact (stored (composed.shown (loads chat) id)).bind fun _ => pure _

theorem restore (chat id : String) (version : Int) : Tends (restore chat id version) :=
  (ofMode .replace id).bind fun _ =>
    (unwrap (composed.restore (loads chat) (fun _ => edits id chat _) version)).bind
      fun _ => pure _

theorem inherit (source target : String) (floor : Option Int) (chosen : Bool)
    (ids : List String) : Tends (inherit source target floor chosen ids) := by
  refine (unwrap (composed.inherit Furnished.pieces.load (loads source) (fun id _ v => ?_)
    floor)).bind fun _ => pure _
  exact Furnished.pieces.setValue trivial trivial v

/-! ### Suites -/

theorem suiteOf (id : String) : Tends (suiteOf id) :=
  require _ (Furnished.pieces.suites.bind fun _ => .pure _)

theorem listSuites : Tends listSuites := by
  refine (stored ?_).bind fun _ => ?_
  · refine Furnished.pieces.settings.bind fun settings => ?_
    split
    · exact .ite (.pure _) (Furnished.pieces.suites.bind fun _ => .pure _)
    · exact .pure _
  · exact (stored (Furnished.pieces.suites.bind fun _ => .pure _)).bind fun _ => pure _

theorem createSuite (name : Option String) (enabled : Bool) (trigger : Option Trigger)
    (useSnapshot : Option Bool) : Tends (createSuite name enabled trigger useSnapshot) :=
  (stored (Ranged.ofComposes (fun _ _ =>
    Composes.create name enabled trigger useSnapshot) trivial)).bind fun _ => pure _

theorem showSuite (id : String) : Tends (showSuite id) :=
  (suiteOf id).bind fun _ => look.bind fun _ => pure _

theorem deleteSuite (id : String) : Tends (deleteSuite id) :=
  (ensure _ (stored (Ranged.ofComposes (fun _ _ => Composes.delete id) trivial))).bind
    fun _ => pure _

theorem activateSuite (id : String) : Tends (activateSuite id) :=
  (ensure _ (stored (Ranged.ofComposes (fun _ _ => Composes.activate id) trivial))).bind
    fun _ => pure _

/-! ### Items -/

/-- A rule for the floors that was checked is of use, and so is the one that stands in for none. -/
theorem useful_of_checked {rule : Option RangeRule} {length : Option ChatLength}
    (h : rule.bind (·.problem? length) = none) : (rule.getD .standard).Useful := by
  cases rule with
  | none => exact RangeRule.useful_standard
  | some rule => exact RangeRule.useful_of h

theorem makeItem (id : String) (f : ItemForm) (kind : ItemKind) : Tends (makeItem id f kind) := by
  unfold Service.makeItem
  cases kind with
  | prompt =>
    exact stored (Ranged.ofComposes (fun _ _ => Composes.addPrompt id _ _ _) trivial)
  | «variable» =>
    have hadd (variableId : String) : Tends (do
        let _ ← Service.variableOf variableId
        Service.stored (Suites.addSlot id variableId f.place)) :=
      (variableOf variableId).bind fun _ =>
        stored (Ranged.ofComposes (fun _ _ => Composes.addSlot id variableId f.place) trivial)
    exact ite (throwThen _ _) (hadd _)
  | chat =>
    dsimp only
    unfold checkRange
    split
    · exact throwThen _ _
    · next hchecked =>
      refine (pure ()).bind fun _ => stored (Ranged.ofComposes (fun _ _ => Composes.addChat id f.name
        f.range f.excludeUser f.scripts f.place) ?_)
      exact useful_of_checked hchecked
  | character =>
    dsimp only
    split
    · exact throw _
    · next part _ =>
      have hadd : Tends (Service.stored
          (Suites.addCharacter id (f.characterId.getD "") part.text f.label f.entryUid)) :=
        stored (Ranged.ofComposes (fun _ _ => Composes.addCharacter id _ _ _ _) trivial)
      exact ite (throwThen _ _) hadd

theorem addItem (id : String) (kind : ItemKind) (f : ItemForm) : Tends (addItem id kind f) := by
  refine (suiteOf id).bind fun _ => (makeItem id f kind).bind fun item => ?_
  split
  · exact throw _
  · exact pure _

theorem deleteItem (id itemId : String) : Tends (deleteItem id itemId) := by
  refine (suiteOf id).bind fun _ => (ensure _ (stored ?_)).bind fun _ => pure _
  exact Ranged.ofComposes (fun _ _ => Composes.removeItem id itemId) trivial

theorem reorderItems (id : String) (order : List String) : Tends (reorderItems id order) := by
  refine (suiteOf id).bind fun _ => (ensure _ (stored ?_)).bind fun _ => pure _
  exact Ranged.ofComposes (fun _ _ => Composes.reorderItems id order) trivial

/-! ### Analyses and the queue -/

theorem remember (c : Chat) (texts : Option (List (String × String))) :
    Tends (remember c texts) := modify fun _ => rfl

theorem newMessage (id : String) (c : Chat) (texts : Option (List (String × String))) :
    Tends (newMessage id c texts) := by
  have hnoticed : Tends (do
      Service.remember c texts
      let tasks ← Service.served (Session.newMessage c)
      return (.obj [("queued", .arr (tasks.map Task.document))] : Json)) :=
    (remember c texts).bind fun _ => (served (Furnished.tended.newMessage c)).bind fun _ => pure _
  unfold Service.newMessage
  split
  · exact throwThen _ _
  · exact hnoticed

theorem analyzeSuite (id : String) (assign : Bool) (c : Chat)
    (texts : Option (List (String × String))) : Tends (analyzeSuite id assign c texts) := by
  refine (suiteOf id).bind fun _ => (remember c texts).bind fun _ => ?_
  refine (served (.ite (Furnished.tended.run id c) (Furnished.tended.analyze id c))).bind fun r => ?_
  split
  · exact throw _
  · exact pure _

theorem applyReply (id chat content : String) (length : Int) :
    Tends (applyReply id chat content length) := by
  refine (suiteOf id).bind fun _ => (served (Furnished.tended.apply content id chat length)).bind fun r => ?_
  split
  · exact throw _
  · exact pure _

theorem showLog (chat : String) : Tends (showLog chat) := look.bind fun _ => pure _

theorem clearLog (chat : String) : Tends (clearLog chat) := by
  refine look.bind fun s => ?_
  split
  · exact pure _
  · next l _ =>
    refine bind (x := Service.served _) (modify fun _ => rfl) fun _ => ?_
    split
    · exact pure _
    · exact served (.throw _)

theorem previewRange (rule : RangeRule) (chat : Option String) (length : Option Int)
    (excludeUser : Bool) : Tends (previewRange rule chat length excludeUser) := by
  refine look.bind fun s => ?_
  dsimp only
  split
  · exact throw _
  · refine bind ?_ fun _ => pure _
    unfold checkRange
    split
    · exact throw _
    · exact pure _

theorem previewTemplate (chat template : String) (messages : List Message) :
    Tends (previewTemplate chat template messages) :=
  (served (Furnished.tended.warm chat)).bind fun _ =>
    (served (.resolve chat messages template)).bind fun _ => pure _

theorem showQueue : Tends showQueue := look.bind fun _ => pure _

theorem enqueueSuite (id : String) (c : Chat) (texts : Option (List (String × String))) :
    Tends (enqueueSuite id c texts) := by
  refine (remember c texts).bind fun _ => (served (Furnished.tended.trigger id c .manual)).bind fun t => ?_
  split
  · exact pure _
  · exact throw _

theorem onTasks (f : Queue → α × Queue) : Tends (onTasks f) :=
  served fun _ hs => .done hs

theorem onTask (p : Problem) (key id : String) (f : Queue → Bool × Queue) :
    Tends (onTask p key id f) := (ensure p (onTasks f)).bind fun _ => pure _

/-! ### Settings -/

theorem showSettings : Tends showSettings := (served Furnished.tended.settings).bind fun _ => pure _

theorem setOverride (api : ApiOverride) : Tends (setOverride api) :=
  (served Furnished.tended.settings).bind fun _ => (stored (Furnished.saveSettings _)).bind fun _ => pure _

theorem setEnabled (enabled : Bool) : Tends (setEnabled enabled) :=
  (served Furnished.tended.settings).bind fun _ => (stored (Furnished.saveSettings _)).bind fun _ => pure _

theorem showHealth : Tends showHealth := by
  refine look.bind fun s => ?_
  refine (stored (Furnished.pieces.definitions.bind fun _ => .pure _)).bind fun _ => ?_
  exact (served Furnished.tended.suites).bind fun _ => pure _

end Tends

/-! ### All endpoints -/

/-- Whatever an endpoint is given, it keeps all items usable. -/
def Endpoint.Careful (e : Endpoint) : Prop := ∀ a, Schema.Yields Tends (e.serve a)

namespace Endpoint.Careful

theorem plain {method path : String} {serve : Arguments → Serving Json}
    (h : ∀ a, Tends (serve a)) : (plain method path serve).Careful := fun a x hx => by
  cases hx
  exact h a

theorem reading {method path : String} {serve : Arguments → Schema.Decoder (Serving Json)}
    (h : ∀ a ctx j, Schema.Yields Tends (serve a ctx j)) : (reading method path serve).Careful :=
  fun a => by
    change Schema.Yields Tends (a.read (serve a))
    unfold Arguments.read
    split
    · exact fun _ hx => nomatch hx
    · exact Schema.yields_below (h a _ _)

theorem creates {e : Endpoint} (h : e.Careful) : e.creates.Careful := h

end Endpoint.Careful

theorem careful_health : ∀ e ∈ healthEndpoints, e.Careful := by
  simp only [healthEndpoints, List.forall_mem_cons]
  exact ⟨.plain fun _ => .showHealth, nofun⟩

theorem careful_variables : ∀ e ∈ variableEndpoints, e.Careful := by
  simp only [variableEndpoints, List.forall_mem_cons]
  refine ⟨.plain fun _ => .listVariables, ?_, .plain fun a => ?_, ?_,
    .plain fun a => .deleteVariable (a.param 0), nofun⟩
  · refine .creates (.reading fun _ _ _ => yields_record fun _ _ => ?_)
    refine yields_seq_any (yields_seq_any (yields_map fun name _ tag mode => ?_))
    exact .createVariable name tag mode
  · exact (Tends.variableOf (a.param 0)).bind fun _ => .pure _
  · refine .reading fun a _ _ => yields_record fun _ _ => ?_
    exact yields_map fun name _ => .renameVariable (a.param 0) name

/-- A content with the floors that it came from. -/
theorem tends_contentBody {serve : String → String → Serving Json}
    (h : ∀ content floors, Tends (serve content floors)) (ctx : Schema.Context) (j : Json) :
    Schema.Yields Tends (contentBody serve ctx j) :=
  yields_record fun _ _ => yields_seq_any (yields_map fun content _ floors => h content floors)

theorem careful_values : ∀ e ∈ valueEndpoints, e.Careful := by
  simp only [valueEndpoints, List.forall_mem_cons]
  refine ⟨.plain fun a => .showValue (a.param 0) (a.param 1), .creates (.reading fun a => ?_),
    fun a => ?_, fun a => ?_, fun a => ?_, .reading fun a _ _ => ?_, .reading fun a => ?_,
    .reading fun a _ _ => ?_, fun a => ?_, .reading fun a _ _ => ?_, nofun⟩
  · exact tends_contentBody fun content floors => .addEntry _ _ content floors
  · exact yields_seq_any (yields_map fun entry _ content => .updateEntry _ _ entry content)
  · exact yields_map fun entry _ => .deleteEntry _ _ entry
  · exact yields_map fun entry _ => .toggleEntry _ _ entry
  · exact yields_record fun _ _ => yields_map fun order _ => .reorderEntries _ _ order
  · exact tends_contentBody fun content floors => .putContent _ _ content floors
  · exact yields_record fun _ _ => yields_map fun direction _ => .navigate _ _ direction
  · exact yields_map fun version _ => .restore _ _ version
  · refine yields_record fun _ _ => yields_seq_any (yields_seq_any (yields_seq_any ?_))
    exact yields_map fun target _ floor chosen ids => .inherit _ target floor chosen ids

theorem careful_messages : ∀ e ∈ messageEndpoints, e.Careful := by
  simp only [messageEndpoints, List.forall_mem_cons]
  refine ⟨.reading fun a _ _ => yields_record fun _ _ => ?_, nofun⟩
  refine yields_seq_any (yields_seq_any fun serve hserve c texts => ?_)
  cases hserve
  exact .newMessage (a.param 0) c texts

theorem careful_analyses : ∀ e ∈ analysisEndpoints, e.Careful := by
  simp only [analysisEndpoints, List.forall_mem_cons]
  refine ⟨.reading fun a _ _ => yields_record fun _ _ => ?_,
    .reading fun a _ _ => yields_record fun _ _ => ?_, .plain fun a => .showLog (a.param 0),
    .plain fun a => .clearLog (a.param 0), .reading fun _ _ _ => yields_record fun _ _ => ?_,
    .reading fun _ _ _ => yields_record fun _ _ => ?_, nofun⟩
  · refine yields_seq_any (yields_seq_any (yields_map fun c _ assign texts => ?_))
    exact .analyzeSuite (a.param 0) assign c texts
  · refine yields_seq_any (yields_seq_any (yields_map fun chat _ content length => ?_))
    exact .applyReply (a.param 0) chat content length
  · refine yields_seq_any (yields_seq_any (yields_seq_any ?_))
    exact yields_map fun rule _ chat length excludeUser => .previewRange rule chat length excludeUser
  · refine yields_seq_any (yields_seq_any (yields_map fun chat _ template messages => ?_))
    exact .previewTemplate chat template messages

theorem careful_settings : ∀ e ∈ settingsEndpoints, e.Careful := by
  simp only [settingsEndpoints, List.forall_mem_cons]
  refine ⟨.plain fun _ => .showSettings, fun a => yields_map fun api _ => .setOverride api,
    .reading fun _ _ _ => yields_record fun _ _ => ?_, nofun⟩
  exact yields_map fun enabled _ => .setEnabled enabled

theorem careful_queue : ∀ e ∈ queueEndpoints, e.Careful := by
  simp only [queueEndpoints, List.forall_mem_cons]
  refine ⟨.plain fun _ => .showQueue,
    .creates (.reading fun _ _ _ => yields_record fun _ _ => ?_),
    .plain fun _ => .onTask _ _ _ _, .plain fun _ => .onTask _ _ _ _,
    .plain fun _ => .onTask _ _ _ _, .plain fun _ => (Tends.onTasks _).bind fun _ => .pure _,
    .plain fun _ => (Tends.onTasks _).bind fun _ => .pure _, nofun⟩
  refine yields_seq_any (yields_seq_any (yields_map fun id _ c texts => ?_))
  exact .enqueueSuite id c texts

/-- The endpoint that gives a suite new values. -/
def suitePatch : Endpoint :=
  taking "PATCH" "/suites/*" fun a => updateSuite (a.param 0) <$> a.read Schema.anyMapping

/-- The endpoint that gives an item new values. -/
def itemPatch : Endpoint :=
  taking "PATCH" "/suites/*/items/*" fun a =>
    updateItem (a.param 0) (a.param 1) <$> a.read Schema.anyMapping

theorem careful_suites : ∀ e ∈ suiteEndpoints, e.Careful ∨ e = suitePatch ∨ e = itemPatch := by
  simp only [suiteEndpoints, List.forall_mem_cons]
  refine ⟨.inl (.plain fun _ => .listSuites),
    .inl (.creates (.reading fun _ _ _ => yields_record fun _ _ => ?_)),
    .inl (.plain fun a => .showSuite (a.param 0)), .inr (.inl rfl),
    .inl (.plain fun a => .deleteSuite (a.param 0)),
    .inl (.plain fun a => .activateSuite (a.param 0)),
    .inl (.creates (.reading fun a _ _ => yields_record fun _ _ => ?_)), .inr (.inr rfl),
    .inl (.plain fun a => .deleteItem (a.param 0) (a.param 1)),
    .inl (.reading fun a _ _ => yields_record fun _ _ => ?_), nofun⟩
  · refine yields_seq_any (yields_seq_any (yields_seq_any ?_))
    exact yields_map fun name _ enabled trigger useSnapshot =>
      .createSuite name enabled trigger useSnapshot
  · exact yields_seq_any (yields_map fun kind _ f => .addItem (a.param 0) kind f)
  · exact yields_map fun order _ => .reorderItems (a.param 0) order

/-- Every endpoint but two keeps all items usable. -/
theorem careful_endpoints : ∀ e ∈ endpoints, e.Careful ∨ e = suitePatch ∨ e = itemPatch := by
  simp only [endpoints, List.forall_mem_append]
  refine ⟨⟨⟨⟨⟨⟨⟨?_, ?_⟩, ?_⟩, ?_⟩, careful_suites⟩, ?_⟩, ?_⟩, ?_⟩
  · exact fun e he => .inl (careful_health e he)
  · exact fun e he => .inl (careful_variables e he)
  · exact fun e he => .inl (careful_values e he)
  · exact fun e he => .inl (careful_messages e he)
  · exact fun e he => .inl (careful_analyses e he)
  · exact fun e he => .inl (careful_settings e he)
  · exact fun e he => .inl (careful_queue e he)

end Service

end TagLedger
