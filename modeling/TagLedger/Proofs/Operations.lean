import TagLedger.Proofs.Waiting
import TagLedger.Suite.Operation
import TagLedger.Variable.Operation

/-!
# Operations

Everything that can be asked of a store, of its variables and of its suites. What the pieces keep
that the operations are put together from, every operation keeps. An invariant that some operations
break is kept by those within a scope.

    Pieces S I → op.Within S → op.perform keeps I            (Pieces.perform)
-/

namespace TagLedger

/-! ## Kinds -/

inductive StoreOperation where
  | load
  | suites
  | definitions
  | settings
  | saveSuites (suites : List (String × Suite))
  | saveDefinitions (ds : List (String × Definition))
  | saveSettings (x : Settings)
  | save
  | saveSoon
  | loadValues (chat : String)
  | getValue (id chat : String)
  | setValue (id chat : String) (v : Value)
  | saveValues (chat : String)
  | saveValuesSoon (chat : String)
  | removeValues (id : String)
  | flush
  | close

inductive VariableOperation where
  | list
  | find (id : String)
  | findByName (name : String)
  | findByTag (tag : String)
  | create (name tag : Option String) (mode : Option Mode)
  | rename (id : String) (name : Option String)
  | delete (withSlots : Bool) (id : String)
  | stack (id chat : String)
  | addEntry (id chat content floors : String)
  | updateEntry (id chat : String) (entry : Int) (content : String)
  | toggleEntry (id chat : String) (entry : Int)
  | deleteEntry (id chat : String) (entry : Int)
  | reorderEntries (id chat : String) (order : List Int)
  | slot (id chat : String)
  | put (id chat content floors : String)
  | navigate (id chat word : String)
  | restore (id chat : String) (version : Int)
  | shown (id chat : String)
  | inherit (source target : String) (floor : Option Int) (only : Option (List String))
  | text (id chat : String)
  | textByName (name chat : String)
  | warm (chat : String)

inductive SuiteOperation where
  | list
  | find (id : String)
  | active
  | setActive (id : Option String)
  | activate (id : String)
  | create (name : Option String) (enabled : Bool) (trigger : Option Trigger)
      (useSnapshot : Option Bool)
  | delete (id : String)
  | update (id : String) (updates : List (String × Json))
  | addPrompt (id content name : String) (place : Option Int)
  | addSlot (id variableId : String) (place : Option Int)
  | addChat (id name : String) (range : Option RangeRule) (excludeUser : Bool)
      (scripts : Option ScriptSet) (place : Option Int)
  | addCharacter (id characterId part label : String) (entryUid : Option Int)
  | updateItem (id itemId : String) (updates : List (String × Json))
  | removeItem (id itemId : String)
  | reorderItems (id : String) (ids : List String)
  | removeSlots (variableId : String)
  | enabledVariables (id : String)
  | visibleItems (id : String)

inductive Operation where
  | ofStore (op : StoreOperation)
  | ofVariables (op : VariableOperation)
  | ofSuites (op : SuiteOperation)

/-! ## Performing -/

/-- Does `x` and keeps its answer to itself. -/
def Activity.silent {σ α : Type} (x : Activity σ α) : Activity σ Unit := x >>= fun _ => pure ()

def StoreOperation.perform : StoreOperation → Activity Storage Unit
  | .load => Storage.load.silent
  | .suites => Storage.suites.silent
  | .definitions => Storage.definitions.silent
  | .settings => Storage.settings.silent
  | .saveSuites list => Storage.saveSuites list
  | .saveDefinitions ds => Storage.saveDefinitions ds
  | .saveSettings x => Storage.saveSettings x
  | .save => .ofAction Storage.save
  | .saveSoon => .ofAction Storage.saveSoon
  | .loadValues chat => (Storage.loadValues chat).silent
  | .getValue id chat => (Storage.getValue id chat).silent
  | .setValue id chat v => Storage.setValue id chat v
  | .saveValues chat => .ofAction (Storage.saveValues chat)
  | .saveValuesSoon chat => .ofAction (Storage.saveValuesSoon chat)
  | .removeValues id => (Activity.ofAction (Storage.removeValues id)).silent
  | .flush => .ofAction Storage.flush
  | .close => .ofAction Storage.close

def VariableOperation.perform : VariableOperation → Activity Storage Unit
  | .list => Variables.list.silent
  | .find id => (Variables.find? id).silent
  | .findByName name => (Variables.findByName? name).silent
  | .findByTag tag => (Variables.findByTag? tag).silent
  | .create name tag mode => (Variables.create name tag mode).silent
  | .rename id name => (Variables.rename id name).silent
  | .delete withSlots id => (Variables.delete withSlots id).silent
  | .stack id chat => (Variables.stack id chat).silent
  | .addEntry id chat content floors => (Variables.addEntry id chat content floors).silent
  | .updateEntry id chat entry content => (Variables.updateEntry id chat entry content).silent
  | .toggleEntry id chat entry => (Variables.toggleEntry id chat entry).silent
  | .deleteEntry id chat entry => (Variables.deleteEntry id chat entry).silent
  | .reorderEntries id chat order => (Variables.reorderEntries id chat order).silent
  | .slot id chat => (Variables.slot id chat).silent
  | .put id chat content floors => (Variables.put id chat content floors).silent
  | .navigate id chat word => (Variables.navigate id chat word).silent
  | .restore id chat version => (Variables.restore id chat version).silent
  | .shown id chat => (Variables.shown id chat).silent
  | .inherit source target floor only => (Variables.inherit source target floor only).silent
  | .text id chat => (Variables.text id chat).silent
  | .textByName name chat => (Variables.textByName name chat).silent
  | .warm chat => Variables.warm chat

def SuiteOperation.perform : SuiteOperation → Activity Storage Unit
  | .list => Suites.list.silent
  | .find id => (Suites.find? id).silent
  | .active => Suites.active.silent
  | .setActive id => Suites.setActive id
  | .activate id => (Suites.activate id).silent
  | .create name enabled trigger useSnapshot =>
    (Suites.create name enabled trigger useSnapshot).silent
  | .delete id => (Suites.delete id).silent
  | .update id updates => (Suites.update id updates).silent
  | .addPrompt id content name place => (Suites.addPrompt id content name place).silent
  | .addSlot id variableId place => (Suites.addSlot id variableId place).silent
  | .addChat id name range excludeUser scripts place =>
    (Suites.addChat id name range excludeUser scripts place).silent
  | .addCharacter id characterId part label entryUid =>
    (Suites.addCharacter id characterId part label entryUid).silent
  | .updateItem id itemId updates => (Suites.updateItem id itemId updates).silent
  | .removeItem id itemId => (Suites.removeItem id itemId).silent
  | .reorderItems id ids => (Suites.reorderItems id ids).silent
  | .removeSlots variableId => (Suites.removeSlots variableId).silent
  | .enabledVariables id => (Suites.enabledVariables id).silent
  | .visibleItems id => (Suites.visibleItems id).silent

def Operation.perform : Operation → Activity Storage Unit
  | .ofStore op => op.perform
  | .ofVariables op => op.perform
  | .ofSuites op => op.perform

/-- The chats that an operation is about. -/
def Operation.chats : Operation → List String
  | .ofStore (.loadValues chat) | .ofStore (.getValue _ chat) | .ofStore (.setValue _ chat _)
  | .ofStore (.saveValues chat) | .ofStore (.saveValuesSoon chat) => [chat]
  | .ofVariables (.stack _ chat) | .ofVariables (.addEntry _ chat _ _)
  | .ofVariables (.updateEntry _ chat _ _) | .ofVariables (.toggleEntry _ chat _)
  | .ofVariables (.deleteEntry _ chat _) | .ofVariables (.reorderEntries _ chat _)
  | .ofVariables (.slot _ chat) | .ofVariables (.put _ chat _ _) | .ofVariables (.navigate _ chat _)
  | .ofVariables (.restore _ chat _) | .ofVariables (.shown _ chat) | .ofVariables (.text _ chat)
  | .ofVariables (.textByName _ chat) | .ofVariables (.warm chat) => [chat]
  | .ofVariables (.inherit source target _ _) => [source, target]
  | _ => []

/-! ## Chats -/

/-- The documents of the chats that are used have names of their own. -/
structure Naming where
  rootName : String
  valuesStart : String
  used : String → Prop
  distinct : ∀ c d, used c → used d →
    Store.valuesName valuesStart c = Store.valuesName valuesStart d → c = d
  apart : ∀ c, used c → Store.valuesName valuesStart c ≠ rootName

/-- Only one chat is used. -/
def Naming.ofChat (rootName valuesStart chat : String)
    (h : Store.valuesName valuesStart chat ≠ rootName) : Naming where
  rootName := rootName
  valuesStart := valuesStart
  used c := c = chat
  distinct _ _ hc hd _ := hc.trans hd.symm
  apart c hc := by
    rw [hc]
    exact h

/-- All chats in memory are used. -/
structure Naming.Covers (N : Naming) (s : Storage) : Prop where
  rootName : s.store.rootName = N.rootName
  valuesStart : s.store.valuesStart = N.valuesStart
  used : ∀ c vs, s.store.cached? c = some vs → N.used c

theorem Naming.Covers.ofKeys {N : Naming} {s : Storage} (hroot : s.store.rootName = N.rootName)
    (hstart : s.store.valuesStart = N.valuesStart)
    (hused : ∀ c ∈ Json.keys s.store.values, N.used c) : N.Covers s :=
  ⟨hroot, hstart, fun c _ hc => hused c (Json.mem_keys_of_find? hc)⟩

/-- A new store that takes over the documents of a storage. -/
def Storage.anew (s : Storage) (debounce epoch : Nat) : Storage :=
  { s with store := .empty s.store.rootName s.store.valuesStart debounce epoch }

/-! ## Scopes -/

/-- What operations may do: which chats they load, the values of which chats they save, of which
variables and chats they set values, and whether they change the root. -/
structure Scope where
  reads : String → Prop
  saves : String → Prop
  sets : String → String → Prop
  root : Prop

/-- Everything, but only for the chats that are used. -/
def Scope.ofChats (used : String → Prop) : Scope := ⟨used, used, fun _ chat => used chat, True⟩

/-- An operation does nothing that is out of scope. -/
def Operation.Within (S : Scope) : Operation → Prop
  | .ofStore (.saveSuites _) | .ofStore (.saveDefinitions _) | .ofStore (.saveSettings _)
  | .ofStore .save | .ofStore .saveSoon | .ofStore (.removeValues _) | .ofSuites _
  | .ofVariables (.create _ _ _) | .ofVariables (.rename _ _) | .ofVariables (.delete _ _) => S.root
  | .ofStore (.loadValues chat) | .ofStore (.getValue _ chat) | .ofVariables (.stack _ chat)
  | .ofVariables (.slot _ chat) | .ofVariables (.shown _ chat) | .ofVariables (.text _ chat)
  | .ofVariables (.textByName _ chat) | .ofVariables (.warm chat) => S.reads chat
  | .ofStore (.saveValues chat) | .ofStore (.saveValuesSoon chat) => S.saves chat
  | .ofStore (.setValue id chat _) | .ofVariables (.addEntry id chat _ _)
  | .ofVariables (.updateEntry id chat _ _) | .ofVariables (.toggleEntry id chat _)
  | .ofVariables (.deleteEntry id chat _) | .ofVariables (.reorderEntries id chat _)
  | .ofVariables (.put id chat _ _) | .ofVariables (.navigate id chat _)
  | .ofVariables (.restore id chat _) => S.reads chat ∧ S.sets id chat
  | .ofVariables (.inherit source target _ _) =>
    S.reads source ∧ S.reads target ∧ ∀ id, S.sets id target
  | _ => True

theorem Operation.within_chats {used : String → Prop} {op : Operation}
    (h : ∀ c ∈ op.chats, used c) : op.Within (.ofChats used) := by
  have hone {c : String} (hc : ∀ d ∈ [c], used d) : used c := hc c (List.mem_singleton_self c)
  have htwo {c d : String} (hc : ∀ e ∈ [c, d], used e) : used c ∧ used d ∧ (String → used d) :=
    have hd := hc d (List.mem_cons_of_mem c (List.mem_singleton_self d))
    ⟨hc c List.mem_cons_self, hd, fun _ => hd⟩
  cases op with
  | ofStore op =>
    cases op with
    | loadValues c | getValue _ c | saveValues c | saveValuesSoon c => exact hone h
    | setValue _ c _ => exact ⟨hone h, hone h⟩
    | _ => trivial
  | ofVariables op =>
    cases op with
    | stack _ c | slot _ c | shown _ c | text _ c | textByName _ c | warm c => exact hone h
    | addEntry _ c | updateEntry _ c | toggleEntry _ c | deleteEntry _ c | reorderEntries _ c
    | put _ c | navigate _ c | restore _ c => exact ⟨hone h, hone h⟩
    | inherit source target floor only => exact htwo h
    | _ => trivial
  | ofSuites op => trivial

/-! ## Pieces -/

/-- What is made of an answer is nothing to the state. -/
theorem ended_map_snd {σ α β : Type} (x : Activity σ α) (f : α → β) (s : σ) :
    (ended (x >>= fun a => pure (f a)) s).2 = (ended x s).2 := by
  rw [ended_bind]
  rcases ended x s with ⟨e | a, t⟩ <;> rfl

theorem ended_silent {σ α : Type} (x : Activity σ α) (s : σ) :
    (ended x.silent s).2 = (ended x s).2 := ended_map_snd x (fun _ => ()) s

theorem Keeps.silent {α κ : Type} {I : Option κ → Storage → Prop} {x : Activity Storage α}
    (hx : Keeps I x) : Keeps I x.silent := hx.bind fun _ => .pure ()

/-! ### Suites -/

/-- `I` is kept by what the operations on suites are put together from. -/
structure SuitePieces {κ : Type} (I : Option κ → Storage → Prop) : Prop where
  newId : ∀ kind n, KeepsNow I (Storage.newId kind n)
  load : Keeps I Storage.load
  saveSuites : ∀ suites, Keeps I (Storage.saveSuites suites)
  saveSettings : ∀ x, Keeps I (Storage.saveSettings x)

namespace SuitePieces

variable {κ : Type} {I : Option κ → Storage → Prop}

theorem suites (h : SuitePieces I) : Keeps I Storage.suites :=
  h.load.bind fun r => .pure r.suites

theorem settings (h : SuitePieces I) : Keeps I Storage.settings :=
  h.load.bind fun r => .pure r.settings

theorem removeSlots (h : SuitePieces I) (id : String) :
    Keeps I (Suites.removeSlots id) := by
  unfold Suites.removeSlots
  refine h.suites.bind fun suites => .ite ?_ (.pure _)
  refine (Keeps.ofAction .now).bind fun now => ?_
  exact (h.saveSuites _).bind fun _ => .pure _

theorem findSuite (h : SuitePieces I) (id : String) : Keeps I (Suites.find? id) :=
  h.suites.bind fun suites => .pure (Json.find? suites id)

theorem setActive (h : SuitePieces I) (id : Option String) : Keeps I (Suites.setActive id) :=
  h.settings.bind fun _ => h.saveSettings _

theorem active (h : SuitePieces I) : Keeps I Suites.active := by
  unfold Suites.active
  refine h.settings.bind fun settings => ?_
  split
  · split
    · exact .pure _
    · exact h.findSuite _
  · exact .pure _

theorem activate (h : SuitePieces I) (id : String) : Keeps I (Suites.activate id) := by
  unfold Suites.activate
  refine (h.findSuite id).bind fun s => ?_
  split
  · exact .pure _
  · exact (h.setActive _).bind fun _ => .pure _

theorem createSuite (h : SuitePieces I) (name : Option String) (enabled : Bool)
    (trigger : Option Trigger) (useSnapshot : Option Bool) :
    Keeps I (Suites.create name enabled trigger useSnapshot) := by
  unfold Suites.create
  refine h.suites.bind fun suites => ?_
  refine (Keeps.ofAction (h.newId "suite" 5)).bind fun id => ?_
  refine (Keeps.ofAction .now).bind fun now => ?_
  refine (h.saveSuites _).bind fun _ => ?_
  exact .ite ((h.setActive _).bind fun _ => .pure _) (.pure _)

theorem deleteSuite (h : SuitePieces I) (id : String) : Keeps I (Suites.delete id) := by
  unfold Suites.delete
  refine h.suites.bind fun suites => ?_
  split
  · exact .pure _
  · refine (h.saveSuites _).bind fun _ => ?_
    refine h.settings.bind fun settings => ?_
    split
    · exact (h.setActive _).bind fun _ => .pure _
    · exact .pure _

theorem valid {α : Type} (c : Schema.Checked α) : Keeps I (Suites.valid c) := by
  cases c with
  | valid a => exact .pure a
  | invalid is => exact .throw _

theorem updateSuite (h : SuitePieces I) (id : String) (updates : List (String × Json)) :
    Keeps I (Suites.update id updates) := by
  unfold Suites.update
  refine h.suites.bind fun suites => ?_
  split
  · exact .pure _
  · refine (Keeps.ofAction .context).bind fun ctx => ?_
    refine (valid _).bind fun s => ?_
    exact (h.saveSuites _).bind fun _ => .pure _

theorem setItems (h : SuitePieces I) (id : String) (items : List Item) :
    Keeps I (Suites.setItems id items) := by
  unfold Suites.setItems
  refine h.suites.bind fun suites => ?_
  exact (Keeps.ofAction .now).bind fun now => h.saveSuites _

theorem addItem (h : SuitePieces I) (id : String) (place : Option Int)
    {make : Suite → Activity Storage (Option Item)} (hmake : ∀ s, Keeps I (make s)) :
    Keeps I (Suites.addItem id place make) := by
  unfold Suites.addItem
  refine (h.findSuite id).bind fun s => ?_
  split
  · exact .pure _
  · refine (hmake _).bind fun item => ?_
    split
    · exact .pure _
    · exact (h.setItems id _).bind fun _ => .pure _

theorem addPrompt (h : SuitePieces I) (id content name : String) (place : Option Int) :
    Keeps I (Suites.addPrompt id content name place) :=
  h.addItem id place fun _ => (Keeps.ofAction (h.newId "item" 5)).bind fun _ => .pure _

theorem addSlot (h : SuitePieces I) (id variableId : String) (place : Option Int) :
    Keeps I (Suites.addSlot id variableId place) :=
  h.addItem id place fun _ => by split <;> exact .pure _

theorem addChat (h : SuitePieces I) (id name : String) (range : Option RangeRule)
    (excludeUser : Bool) (scripts : Option ScriptSet) (place : Option Int) :
    Keeps I (Suites.addChat id name range excludeUser scripts place) :=
  h.addItem id place fun _ => (Keeps.ofAction (h.newId "item" 5)).bind fun _ => .pure _

theorem addCharacter (h : SuitePieces I) (id characterId part label : String)
    (entryUid : Option Int) : Keeps I (Suites.addCharacter id characterId part label entryUid) :=
  h.addItem id none fun s => by
    split
    · exact .pure _
    · refine (Keeps.ofAction (h.newId "item" 5)).bind fun itemId => ?_
      refine (Keeps.ofAction .context).bind fun ctx => ?_
      exact (valid _).bind fun _ => .pure _

theorem updateItem (h : SuitePieces I) (id itemId : String) (updates : List (String × Json)) :
    Keeps I (Suites.updateItem id itemId updates) := by
  unfold Suites.updateItem
  refine (h.findSuite id).bind fun s => ?_
  split
  · exact .pure _
  split
  · exact .pure _
  · refine (Keeps.ofAction .context).bind fun ctx => ?_
    refine (valid _).bind fun new => ?_
    exact (h.setItems id _).bind fun _ => .pure _

theorem removeItem (h : SuitePieces I) (id itemId : String) :
    Keeps I (Suites.removeItem id itemId) := by
  unfold Suites.removeItem
  refine (h.findSuite id).bind fun s => ?_
  split
  · exact .pure _
  split
  · exact .pure _
  · exact (h.setItems id _).bind fun _ => .pure _

theorem reorderItems (h : SuitePieces I) (id : String) (ids : List String) :
    Keeps I (Suites.reorderItems id ids) := by
  unfold Suites.reorderItems
  refine (h.findSuite id).bind fun s => ?_
  split
  · exact .pure _
  · exact .ite (.pure _) ((h.setItems id _).bind fun _ => .pure _)

theorem perform (h : SuitePieces I) (op : SuiteOperation) : Keeps I op.perform := by
  cases op with
  | list => exact (h.suites.bind fun _ => .pure _).silent
  | find id => exact (h.findSuite id).silent
  | active => exact h.active.silent
  | setActive id => exact h.setActive id
  | activate id => exact (h.activate id).silent
  | create name enabled trigger useSnapshot =>
    exact (h.createSuite name enabled trigger useSnapshot).silent
  | delete id => exact (h.deleteSuite id).silent
  | update id updates => exact (h.updateSuite id updates).silent
  | addPrompt id content name place => exact (h.addPrompt id content name place).silent
  | addSlot id variableId place => exact (h.addSlot id variableId place).silent
  | addChat id name range excludeUser scripts place =>
    exact (h.addChat id name range excludeUser scripts place).silent
  | addCharacter id characterId part label entryUid =>
    exact (h.addCharacter id characterId part label entryUid).silent
  | updateItem id itemId updates => exact (h.updateItem id itemId updates).silent
  | removeItem id itemId => exact (h.removeItem id itemId).silent
  | reorderItems id ids => exact (h.reorderItems id ids).silent
  | removeSlots variableId => exact (h.removeSlots variableId).silent
  | enabledVariables id => exact ((h.findSuite id).bind fun _ => .pure _).silent
  | visibleItems id => exact ((h.findSuite id).bind fun _ => .pure _).silent

end SuitePieces

/-! ### Reading and changing -/

section Changing

variable {φ κ : Type} {id chat : String} {v : Value}

/-- A root that is in memory is not read. -/
theorem Keeps.loadInMemory {I : Option κ → Storage → Prop}
    (hroot : ∀ f s, I f s → s.store.root.isSome = true) : Keeps I Storage.load := fun f s h => by
  obtain ⟨r, hr⟩ := Option.isSome_iff_exists.mp (hroot f s h)
  rw [Storage.load_some hr]
  exact .done h fun _ _ => trivial

/-- Changing a value where it lies keeps what new values of the chat keep. -/
theorem KeepsNow.amend {I : φ → Storage → Prop}
    (hvalues : ∀ f s vs, I f s → s.store.cached? chat = some vs →
      I f { s with store := s.store.setValues chat (Json.insert vs id v) }) :
    KeepsNow I (Storage.onStore (·.amend id chat v)) := fun f s h => by
  rw [Storage.exec_onStore]
  unfold Store.amend
  cases hcached : s.store.cached? chat with
  | none => exact h
  | some vs =>
    dsimp only
    split
    · exact hvalues f s vs h hcached
    · exact h

/-- Setting a value keeps what new values of the chat keep, if those that are read are as `Q`
says. -/
theorem Keeps.setValue {I : Option κ → Storage → Prop} {Q : ChatValues → Prop}
    (hread : Gives I (fun vs _ => Q vs) (Storage.loadValues chat))
    (hvalues : ∀ f s vs, I f s → Q vs →
      I f { s with store := s.store.setValues chat (Json.insert vs id v) })
    (hsoon : KeepsNow I (Storage.saveValuesSoon chat)) : Keeps I (Storage.setValue id chat v) := by
  unfold Storage.setValue
  refine (Keeps.ofAction (.checkWritable chat)).bind fun _ => ?_
  refine hread.bind fun f vs s h hvs => ?_
  have hrest : Keeps I (do
      Storage.checkWritable chat
      Storage.onStore (·.setValues chat (Json.insert vs id v))
      Storage.saveValuesSoon chat) := by
    have hset : KeepsNow I (Storage.onStore (·.setValues chat (Json.insert vs id v))) :=
      fun f s h => hvalues f s vs h hvs
    refine (Keeps.ofAction (.checkWritable chat)).bind fun _ => ?_
    exact (Keeps.ofAction hset).bind fun _ => .ofAction hsoon
  exact hrest f s h

/-- Taking a variable out of chats keeps what their other values keep. -/
theorem KeepsNow.removeFromChats {I : φ → Storage → Prop} {l : List (String × ChatValues)}
    (hvalues : ∀ c ∈ l, ∀ f s, I f s →
      I f { s with store := s.store.setValues c.1 (c.2.filter (·.1 != id)) })
    (hsoon : ∀ chat, KeepsNow I (Storage.saveValuesSoon chat)) :
    KeepsNow I (Storage.removeFromChats id l) := by
  induction l with
  | nil => exact .pure _
  | cons c l ih =>
    have ih := ih fun d hd => hvalues d (List.mem_cons_of_mem c hd)
    unfold Storage.removeFromChats
    refine .ite ?_ ih
    refine KeepsNow.bind (x := Storage.onStore _) (hvalues c List.mem_cons_self) fun _ => ?_
    exact (hsoon c.1).bind fun _ => ih.bind fun _ => .pure _

/-- Removing a variable keeps what the other values in memory keep. -/
theorem KeepsNow.removeValues {I : φ → Storage → Prop}
    (hremoved : ∀ f s removed, s.store.removed ⊆ removed → I f s →
      I f { s with store := { s.store with removed := removed } })
    (hvalues : ∀ {f s}, I f s → ∀ c ∈ s.store.values, ∀ f s, I f s →
      I f { s with store := s.store.setValues c.1 (c.2.filter (·.1 != id)) })
    (hsoon : ∀ chat, KeepsNow I (Storage.saveValuesSoon chat)) :
    KeepsNow I (Storage.removeValues id) := by
  refine KeepsNow.bind (x := Storage.onStore _) (fun f s h => hremoved f s _ ?_ h)
    fun _ f s h => ?_
  · split
    · exact List.Subset.refl _
    · exact List.subset_append_left _ _
  · rw [exec_bind, Storage.exec_store?]
    exact removeFromChats (hvalues h) hsoon f s h

end Changing

/-! ### Finding -/

theorem Suites.ended_find {s : Storage} {r : Root} (h : s.store.root = some r) (id : String) :
    ended (Suites.find? id) s = (.ok (Json.find? r.suites id), s) :=
  ended_bind_ok (Storage.ended_suites h) _

theorem Variables.ended_find {s : Storage} {r : Root} (h : s.store.root = some r) (id : String) :
    ended (Variables.find? id) s = (.ok (Json.find? r.definitions id), s) :=
  ended_bind_ok (Storage.ended_definitions h) _

/-! ### What is put together -/

/-- `J` holds of what is put together from activities that it holds of. -/
structure Compositional (J : (α : Type) → Activity Storage α → Prop) : Prop where
  pure : ∀ {α : Type} (a : α), J α (pure a)
  throw : ∀ {α : Type} (e : Failure), J α (throw e)
  bind : ∀ {α β : Type} {x : Activity Storage α} {f : α → Activity Storage β},
    J α x → (∀ a, J β (f a)) → J β (x >>= f)
  now : J Int (.ofAction Storage.now)

namespace Compositional

variable {J : (α : Type) → Activity Storage α → Prop} (h : Compositional J) {id chat : String}

theorem keeps {κ : Type} {I : Option κ → Storage → Prop} :
    Compositional fun _ x => Keeps I x where
  pure := .pure
  throw := .throw
  bind := .bind
  now := .ofAction .now

include h

theorem silent {α : Type} {x : Activity Storage α} (hx : J α x) : J Unit x.silent :=
  h.bind hx fun _ => h.pure ()

theorem definitions (hload : J Root Storage.load) :
    J (List (String × Definition)) Storage.definitions := h.bind hload fun r => h.pure r.definitions

/-! #### Reading -/

section Reading

variable (hread : J ChatValues (Storage.loadValues chat))

include hread

theorem getValue (id : String) : J (Option Value) (Storage.getValue id chat) :=
  h.bind hread fun vs => h.pure (Json.find? vs id)

theorem stack (id : String) : J Stack (Variables.stack id chat) := by
  unfold Variables.stack
  refine h.bind (h.getValue hread id) fun v => ?_
  split <;> exact h.pure _

theorem slot (id : String) : J Slot (Variables.slot id chat) := by
  unfold Variables.slot
  refine h.bind (h.getValue hread id) fun v => ?_
  split <;> exact h.pure _

theorem shown (id : String) : J Slot.Shown (Variables.shown id chat) := by
  unfold Variables.shown
  refine h.bind (h.slot hread id) fun s => ?_
  split
  · exact h.pure _
  · exact h.throw _

theorem text (hload : J Root Storage.load) (id : String) :
    J String (Variables.text id chat) := by
  unfold Variables.text
  refine h.bind (h.bind (h.definitions hload) fun ds => h.pure (Json.find? ds id)) fun d => ?_
  split
  · exact h.pure _
  split
  · exact h.bind (h.stack hread id) fun s => h.pure _
  · exact h.bind (h.slot hread id) fun s => h.pure _

theorem textByName (hload : J Root Storage.load) (name : String) :
    J String (Variables.textByName name chat) := by
  unfold Variables.textByName
  refine h.bind (h.bind (h.definitions hload) fun ds => h.pure (Variables.named? ds name))
    fun d => ?_
  split
  · exact h.pure _
  · exact h.text hread hload _

/-! #### Stacks -/

section Stacks

variable (hedit : ∀ x : Stack, J Unit (Storage.editValue id chat (.stack x)))

include hedit

theorem addEntry (content floors : String) :
    J Entry (Variables.addEntry id chat content floors) := by
  unfold Variables.addEntry
  refine h.bind (h.stack hread id) fun s => h.bind h.now fun now => ?_
  exact h.bind (hedit _) fun _ => h.pure _

theorem changeEntry (entry : Int) (f : Entry → Entry) :
    J (Outcome Entry) (Variables.changeEntry id chat entry f) := by
  unfold Variables.changeEntry
  refine h.bind (h.stack hread id) fun s => ?_
  split
  · exact h.pure _
  · exact h.bind (hedit _) fun _ => h.pure _

theorem toggleEntry (entry : Int) : J (Outcome Bool) (Variables.toggleEntry id chat entry) :=
  h.bind (h.changeEntry hread hedit entry _) fun _ => h.pure _

theorem deleteEntry (entry : Int) : J (Outcome Entry) (Variables.deleteEntry id chat entry) := by
  unfold Variables.deleteEntry
  refine h.bind (h.stack hread id) fun s => ?_
  split
  · exact h.pure _
  · exact h.bind (hedit _) fun _ => h.pure _

theorem reorderEntries (order : List Int) :
    J (Outcome Unit) (Variables.reorderEntries id chat order) := by
  unfold Variables.reorderEntries
  refine h.bind (h.stack hread id) fun s => ?_
  split
  · exact h.pure _
  split
  · exact h.pure _
  · exact h.bind (hedit _) fun _ => h.pure _

end Stacks

/-! #### Slots -/

section Slots

variable (hedit : ∀ x : Slot, J Unit (Storage.editValue id chat (.slot x)))

include hedit

theorem put (content floors : String) : J Slot (Variables.put id chat content floors) := by
  unfold Variables.put
  refine h.bind (h.slot hread id) fun s => h.bind h.now fun now => ?_
  exact h.bind (hedit _) fun _ => h.pure _

theorem navigate (word : String) :
    J (Outcome (Int × Int)) (Variables.navigate id chat word) := by
  unfold Variables.navigate
  split
  · exact h.pure _
  · refine h.bind (h.slot hread id) fun s => ?_
    split
    · exact h.pure _
    · exact h.bind (hedit _) fun _ => h.pure _

theorem restore (version : Int) : J (Outcome Slot) (Variables.restore id chat version) := by
  unfold Variables.restore
  refine h.bind (h.slot hread id) fun s => h.bind h.now fun now => ?_
  split
  · exact h.pure _
  · exact h.bind (hedit _) fun _ => h.pure _

end Slots

end Reading

/-! #### Branches -/

theorem copyInto (floor : Option Int) {l : List (String × Value)}
    (hset : ∀ x ∈ l, ∀ v, x.2.branch floor = .ok (some v) →
      J Unit (Storage.setValue x.1 chat v)) :
    J (List String) (Variables.copyInto chat floor l) := by
  induction l with
  | nil => exact h.pure _
  | cons x l ih =>
    rw [List.forall_mem_cons] at hset
    unfold Variables.copyInto
    split
    · exact h.throw _
    · exact ih hset.2
    · next v hv => exact h.bind (hset.1 v hv) fun _ => h.bind (ih hset.2) fun _ => h.pure _

/-- Only the values that are asked for are copied, if not all are. -/
theorem inherit {source target : String} {only : Option (List String)}
    (hload : J Root Storage.load) (hread : J ChatValues (Storage.loadValues source))
    (hset : ∀ id, (∀ ids, only = some ids → id ∈ ids) → ∀ v,
      J Unit (Storage.setValue id target v)) (floor : Option Int) :
    J (Outcome (List String)) (Variables.inherit source target floor only) := by
  unfold Variables.inherit
  split
  · exact h.pure _
  · refine h.bind (h.definitions hload) fun ds => h.bind hread fun vs => ?_
    refine h.bind (h.copyInto floor fun x hx v _ => hset x.1 (fun ids hids => ?_) v)
      fun _ => h.pure _
    obtain ⟨-, hwanted⟩ := List.mem_filter.mp hx
    rw [hids, Bool.and_eq_true] at hwanted
    exact List.contains_iff_mem.mp hwanted.1

end Compositional

/-- `J` holds of what operations on variables within a scope are put together from. -/
structure VariablePieces (S : Scope) (J : (α : Type) → Activity Storage α → Prop) : Prop
    extends Compositional J where
  load : J Root Storage.load
  loadValues : ∀ {chat}, S.reads chat → J ChatValues (Storage.loadValues chat)
  editValue : ∀ {id chat}, S.reads chat → S.sets id chat → ∀ v,
    J Unit (Storage.editValue id chat v)
  setValue : ∀ {id chat}, S.reads chat → S.sets id chat → ∀ v,
    J Unit (Storage.setValue id chat v)
  create : S.root → ∀ name tag mode, J Unit (VariableOperation.create name tag mode).perform
  rename : S.root → ∀ id name, J Unit (VariableOperation.rename id name).perform
  delete : S.root → ∀ withSlots id, J Unit (VariableOperation.delete withSlots id).perform

theorem VariablePieces.perform {S : Scope} {J : (α : Type) → Activity Storage α → Prop}
    (h : VariablePieces S J) (op : VariableOperation) (hop : (Operation.ofVariables op).Within S) :
    J Unit op.perform := by
  have hedit {id chat : String} (hop : S.reads chat ∧ S.sets id chat) (v : Value) :
      J Unit (Storage.editValue id chat v) := h.editValue hop.1 hop.2 v
  cases op with
  | list | find | findByName | findByTag =>
    exact h.silent (h.bind (h.definitions h.load) fun ds => h.pure _)
  | create name tag mode => exact h.create hop name tag mode
  | rename id name => exact h.rename hop id name
  | delete withSlots id => exact h.delete hop withSlots id
  | stack id chat => exact h.silent (h.stack (h.loadValues hop) id)
  | addEntry id chat content floors =>
    exact h.silent (h.addEntry (h.loadValues hop.1) (fun _ => hedit hop _) content floors)
  | updateEntry id chat entry content =>
    exact h.silent (h.changeEntry (h.loadValues hop.1) (fun _ => hedit hop _) entry _)
  | toggleEntry id chat entry =>
    exact h.silent (h.toggleEntry (h.loadValues hop.1) (fun _ => hedit hop _) entry)
  | deleteEntry id chat entry =>
    exact h.silent (h.deleteEntry (h.loadValues hop.1) (fun _ => hedit hop _) entry)
  | reorderEntries id chat order =>
    exact h.silent (h.reorderEntries (h.loadValues hop.1) (fun _ => hedit hop _) order)
  | slot id chat => exact h.silent (h.slot (h.loadValues hop) id)
  | put id chat content floors =>
    exact h.silent (h.put (h.loadValues hop.1) (fun _ => hedit hop _) content floors)
  | navigate id chat word =>
    exact h.silent (h.navigate (h.loadValues hop.1) (fun _ => hedit hop _) word)
  | restore id chat version =>
    exact h.silent (h.restore (h.loadValues hop.1) (fun _ => hedit hop _) version)
  | shown id chat => exact h.silent (h.shown (h.loadValues hop) id)
  | inherit source target floor only =>
    refine h.silent (h.inherit h.load (h.loadValues hop.1) (fun id _ v => ?_) floor)
    exact h.setValue hop.2.1 (hop.2.2 id) v
  | text id chat => exact h.silent (h.text (h.loadValues hop) h.load id)
  | textByName name chat => exact h.silent (h.textByName (h.loadValues hop) h.load name)
  | warm chat =>
    exact h.bind h.load fun _ => h.bind (h.loadValues hop) fun _ => h.pure ()

/-! ### Scopes -/

/-- `I` is kept by what the operations within a scope are put together from. -/
structure Pieces {κ : Type} (S : Scope) (I : Option κ → Storage → Prop) : Prop where
  newId : ∀ kind n, KeepsNow I (Storage.newId kind n)
  load : Keeps I Storage.load
  changeRoot : S.root → ∀ f, Keeps I (Storage.changeRoot f)
  save : S.root → KeepsNow I Storage.save
  saveSoon : S.root → KeepsNow I Storage.saveSoon
  removeValues : S.root → ∀ id, KeepsNow I (Storage.removeValues id)
  loadValues : ∀ {chat}, S.reads chat → Keeps I (Storage.loadValues chat)
  amend : ∀ {id chat}, S.sets id chat → ∀ v, KeepsNow I (Storage.onStore (·.amend id chat v))
  setValue : ∀ {id chat}, S.reads chat → S.sets id chat → ∀ v,
    Keeps I (Storage.setValue id chat v)
  saveValues : ∀ {chat}, S.saves chat → KeepsNow I (Storage.saveValues chat)
  saveValuesSoon : ∀ {chat}, S.saves chat → KeepsNow I (Storage.saveValuesSoon chat)
  flush : KeepsNow I Storage.flush
  close : KeepsNow I Storage.close

namespace Pieces

variable {κ : Type} {S : Scope} {I : Option κ → Storage → Prop} {id chat : String}

/-- What changes the root at will also changes the suites and the settings. -/
theorem suitePieces (h : Pieces S I) (hroot : S.root) : SuitePieces I where
  newId := h.newId
  load := h.load
  saveSuites suites := h.changeRoot hroot fun r => { r with suites := suites }
  saveSettings x := h.changeRoot hroot fun r => { r with settings := x }

theorem suites (h : Pieces S I) : Keeps I Storage.suites := h.load.bind fun r => .pure r.suites

theorem definitions (h : Pieces S I) : Keeps I Storage.definitions :=
  h.load.bind fun r => .pure r.definitions

theorem settings (h : Pieces S I) : Keeps I Storage.settings :=
  h.load.bind fun r => .pure r.settings

theorem getValue (h : Pieces S I) (hr : S.reads chat) (id : String) :
    Keeps I (Storage.getValue id chat) := (h.loadValues hr).bind fun vs => .pure (Json.find? vs id)

theorem editValue (h : Pieces S I) (hr : S.reads chat) (hs : S.sets id chat) (v : Value) :
    Keeps I (Storage.editValue id chat v) :=
  (Keeps.ofAction (h.amend hs v)).bind fun _ => h.setValue hr hs v

theorem storeOperation (h : Pieces S I) (op : StoreOperation)
    (hop : (Operation.ofStore op).Within S) : Keeps I op.perform := by
  cases op with
  | load => exact h.load.silent
  | suites => exact h.suites.silent
  | definitions => exact h.definitions.silent
  | settings => exact h.settings.silent
  | saveSuites list => exact h.changeRoot hop fun r => { r with suites := list }
  | saveDefinitions ds => exact h.changeRoot hop fun r => { r with definitions := ds }
  | saveSettings x => exact h.changeRoot hop fun r => { r with settings := x }
  | save => exact .ofAction (h.save hop)
  | saveSoon => exact .ofAction (h.saveSoon hop)
  | loadValues chat => exact (h.loadValues hop).silent
  | getValue id chat => exact (h.getValue hop id).silent
  | setValue id chat v => exact h.setValue hop.1 hop.2 v
  | saveValues chat => exact .ofAction (h.saveValues hop)
  | saveValuesSoon chat => exact .ofAction (h.saveValuesSoon hop)
  | removeValues id => exact (Keeps.ofAction (h.removeValues hop id)).silent
  | flush => exact .ofAction h.flush
  | close => exact .ofAction h.close

/-! ### Variables -/

theorem createVariable (h : Pieces S I) (hroot : S.root) (name tag : Option String)
    (mode : Option Mode) : Keeps I (Variables.create name tag mode) := by
  unfold Variables.create
  split
  · exact .pure _
  · refine h.definitions.bind fun ds => ?_
    split
    · exact .pure _
    split
    · exact .pure _
    split
    · exact .pure _
    · refine (Keeps.ofAction (h.newId "var" 5)).bind fun id => ?_
      refine (Keeps.ofAction .now).bind fun now => ?_
      exact (h.changeRoot hroot _).bind fun _ => .pure _

theorem rename (h : Pieces S I) (hroot : S.root) (id : String) (name : Option String) :
    Keeps I (Variables.rename id name) := by
  unfold Variables.rename
  refine h.definitions.bind fun ds => ?_
  split
  · exact .pure _
  split
  · exact .pure _
  · refine (Keeps.ofAction .now).bind fun now => ?_
    exact (h.changeRoot hroot _).bind fun _ => .pure _

theorem deleteVariable (h : Pieces S I) (hroot : S.root) (withSlots : Bool) (id : String) :
    Keeps I (Variables.delete withSlots id) := by
  unfold Variables.delete
  refine h.definitions.bind fun ds => ?_
  split
  · exact .pure _
  · refine (h.changeRoot hroot _).bind fun _ => ?_
    refine (Keeps.ofAction (h.removeValues hroot id)).bind fun _ => ?_
    split
    · exact ((h.suitePieces hroot).removeSlots id).bind fun _ => .pure _
    · exact .pure _

/-- What operations on variables are put together from. -/
theorem variablePieces (h : Pieces S I) : VariablePieces S fun _ x => Keeps I x where
  toCompositional := .keeps
  load := h.load
  loadValues := h.loadValues
  editValue := h.editValue
  setValue := h.setValue
  create hroot name tag mode := (h.createVariable hroot name tag mode).silent
  rename hroot id name := (h.rename hroot id name).silent
  delete hroot withSlots id := (h.deleteVariable hroot withSlots id).silent

theorem variableOperation (h : Pieces S I) (op : VariableOperation)
    (hop : (Operation.ofVariables op).Within S) : Keeps I op.perform :=
  h.variablePieces.perform op hop

/-- Every operation within a scope keeps what its pieces keep. -/
theorem perform (h : Pieces S I) (op : Operation) (hop : op.Within S) : Keeps I op.perform := by
  cases op with
  | ofStore op => exact h.storeOperation op hop
  | ofVariables op => exact h.variableOperation op hop
  | ofSuites op => exact (h.suitePieces hop).perform op

end Pieces

end TagLedger
