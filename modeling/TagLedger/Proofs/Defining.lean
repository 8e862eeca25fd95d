import Mathlib.Logic.Relation
import TagLedger.Proofs.Numbering
import TagLedger.Proofs.Removal

/-!
# Definitions

Only three operations change the definitions of variables: one is added under a name and a tag that
no other has, one is renamed, or one is dropped. Everything else that is asked of a store leaves
them as they are. So identifiers, and tags, tell the definitions apart in every storage that an
empty one comes to.

    s.Lists ds, s comes to t  →  t.Lists ds' and ds comes to ds' step by step    (Storage.Lists.run)
    ds comes from []  →  ds.Unambiguous                                       (unambiguous_of_steps)
-/

namespace TagLedger

/-! ## Telling values apart -/

namespace Json

variable {α β : Type} {fields : List (String × α)} {f : α → β}

/-- Values under different keys have different images. -/
def Apart (f : α → β) (fields : List (String × α)) : Prop :=
  ∀ i j a b, find? fields i = some a → find? fields j = some b → f a = f b → i = j

theorem Apart.nil (f : α → β) : Apart f [] := nofun

theorem Apart.insert (h : Apart f fields) {key : String} {a : α}
    (ha : ∀ j b, find? fields j = some b → f b = f a → j = key) :
    Apart f (Json.insert fields key a) := by
  intro i j b c hb hc heq
  rw [find?_insert] at hb hc
  split at hb
  · next hi =>
    obtain rfl := Option.some.inj hb
    split at hc
    · next hj => exact hi.symm.trans hj
    · exact hi.symm.trans (ha j c hc heq.symm).symm
  · split at hc
    · next hj =>
      obtain rfl := Option.some.inj hc
      exact (ha i b hb heq).trans hj
    · exact h i j b c hb hc heq

theorem Apart.filter (h : Apart f fields) (keep : String → Bool) :
    Apart f (fields.filter fun x => keep x.1) := by
  have hkept {i : String} {a : α} (ha : find? (fields.filter fun x => keep x.1) i = some a) :
      find? fields i = some a := by
    rw [find?_filter] at ha
    split at ha
    · exact ha
    · contradiction
  exact fun i j a b ha hb => h i j a b (hkept ha) (hkept hb)

end Json

/-! ## Steps -/

open Variables in
/-- What one operation makes of the definitions. -/
inductive DefinitionStep (ds : List (String × Definition)) :
    List (String × Definition) → Prop where
  | created (id : String) {name tag : Option String} (mode : Mode) (now : Int)
      (hname : nameProblem? name = none) (htag : tagProblem? tag = none)
      (hnamed : named? ds (Text.trimmed (name.getD "")) = none)
      (htagged : tagged? ds (Text.trimmed (tag.getD "")) = none) :
      DefinitionStep ds (Json.insert ds id
        ⟨id, Text.trimmed (name.getD ""), Text.trimmed (tag.getD ""), mode, now, now⟩)
  | renamed {id : String} {d : Definition} (hd : Json.find? ds id = some d)
      {name : Option String} (hname : name.bind (renameProblem? ds id) = none) (now : Int) :
      DefinitionStep ds (Json.insert ds id
        { d with name := (name.map Text.trimmed).getD d.name, updatedAt := now })
  | removed (id : String) : DefinitionStep ds (ds.filter (·.1 != id))

/-! ## Unambiguous definitions -/

/-- Identifiers and tags tell the definitions apart. -/
structure Unambiguous (ds : List (String × Definition)) : Prop where
  keys : (Json.keys ds).Nodup
  id_eq : ∀ id d, Json.find? ds id = some d → d.id = id
  tags : Json.Apart Definition.tag ds

namespace Unambiguous

variable {ds es : List (String × Definition)} {id : String} {d : Definition}

theorem nil : Unambiguous [] := ⟨List.nodup_nil, nofun, .nil _⟩

theorem mem_values (h : Unambiguous ds) (hd : d ∈ ds.map (·.2)) :
    Json.find? ds d.id = some d := by
  obtain ⟨⟨id, e⟩, he, rfl⟩ := List.mem_map.mp hd
  have hfind := Json.find?_of_mem h.keys he
  rw [h.id_eq id e hfind]
  exact hfind

/-- A definition is found by what tells the definitions apart. -/
theorem find_apart {f : Definition → String} (h : Unambiguous ds) (hf : Json.Apart f ds)
    (hd : Json.find? ds id = some d) :
    (ds.map (·.2)).find? (fun e => f e == f d) = some d := by
  have hmem : d ∈ ds.map (·.2) := List.mem_map_of_mem (Json.mem_of_find? hd)
  cases hfind : (ds.map (·.2)).find? (fun e => f e == f d) with
  | none =>
    rw [List.find?_eq_none] at hfind
    exact absurd (beq_self_eq_true (f d)) (hfind d hmem)
  | some e =>
    have hsame := List.find?_some hfind
    rw [beq_iff_eq] at hsame
    have he := h.mem_values (List.mem_of_find?_eq_some hfind)
    have hid := hf e.id id e d he hd hsame
    rw [hid, hd] at he
    exact he.symm

/-- A definition is found by its tag. -/
theorem tagged?_eq (h : Unambiguous ds) (hd : Json.find? ds id = some d) :
    Variables.tagged? ds d.tag = some d := h.find_apart h.tags hd

theorem insert (h : Unambiguous ds) (hid : d.id = id)
    (htag : ∀ j e, Json.find? ds j = some e → e.tag = d.tag → j = id) :
    Unambiguous (Json.insert ds id d) where
  keys := Json.nodup_keys_insert h.keys id d
  id_eq i e he := by
    rw [Json.find?_insert] at he
    split at he
    · next hi => rw [← Option.some.inj he, hid, hi]
    · exact h.id_eq i e he
  tags := h.tags.insert htag

theorem step (h : Unambiguous ds) (hstep : DefinitionStep ds es) : Unambiguous es := by
  cases hstep with
  | created id mode now hname htag hnamed htagged =>
    refine h.insert rfl fun j e he htag => ?_
    have hnone := List.find?_eq_none.mp htagged e (List.mem_map_of_mem (Json.mem_of_find? he))
    exact absurd (beq_iff_eq.mpr htag) hnone
  | @renamed id d hd name hname now =>
    exact h.insert (h.id_eq id d hd) fun j e he htag => h.tags j id e d he hd htag
  | removed id =>
    refine ⟨h.keys.sublist (List.filter_sublist.map _), fun i e he => ?_, h.tags.filter (· != id)⟩
    rw [Json.find?_filter (· != id)] at he
    split at he
    · exact h.id_eq i e he
    · contradiction

end Unambiguous

theorem unambiguous_of_steps {ds : List (String × Definition)}
    (h : Relation.ReflTransGen DefinitionStep [] ds) : Unambiguous ds := by
  induction h with
  | refl => exact .nil
  | tail _ hstep ih => exact ih.step hstep

/-! ## The root in memory -/

/-- A root is in memory, and is as `P` says. -/
def Storage.Holds (P : Root → Prop) (s : Storage) : Prop := ∃ r, s.store.root = some r ∧ P r

/-- Values may be read and set, but the root may not be changed. -/
def Scope.ofValues : Scope := ⟨fun _ => True, fun _ => True, fun _ _ => True, False⟩

namespace Storage.Holds

variable {P : Root → Prop}

theorem unlocked : Unlocked (Holds P) := fun _ _ _ h => h

theorem writing : KeepsWriting (Always (Holds P)) := .ofMemory fun _ _ _ _ _ _ _ h => h

theorem load : Keeps (Always (Holds P)) Storage.load :=
  .loadInMemory fun _ _ ⟨r, hr, _⟩ => Option.isSome_iff_exists.mpr ⟨r, hr⟩

theorem changeRoot {f : Root → Root} (hf : ∀ r, P r → P (f r)) :
    Keeps (Always (Holds P)) (Storage.changeRoot f) := by
  refine load.bind fun root => (Keeps.ofAction (x := Storage.onStore _) ?_).bind fun _ =>
    .ofAction (x := Storage.saveSoon) fun _ _ h => h
  rintro _ s ⟨r, hr, hP⟩
  refine ⟨f r, ?_, hf r hP⟩
  change some (f (s.store.root.getD root)) = some (f r)
  rw [hr]
  rfl

theorem removeValues (id : String) : KeepsNow (Always (Holds P)) (Storage.removeValues id) :=
  .removeValues (fun _ _ _ _ h => h) (fun _ _ _ _ _ h => h) fun _ _ _ h => h

theorem loadValues (chat : String) : Keeps (Always (Holds P)) (Storage.loadValues chat) :=
  Gives.loadValues (fun _ => unlocked) (fun _ _ _ _ _ => trivial) load (fun _ _ _ _ _ => trivial)
    fun _ s₀ _ s root _ h => by
      obtain ⟨values, degraded, dirty, timer, hframe⟩ := Storage.looked_frame s
        (s.store.root.getD root) chat (Store.valuesName s₀.store.valuesStart chat)
      refine ⟨?_, trivial⟩
      change Holds P (s.looked _ chat _).2
      rw [hframe]
      exact h

theorem pieces : Pieces .ofValues (Always (Holds P)) where
  newId _ _ _ _ h := h
  load := load
  changeRoot h := h.elim
  save h := h.elim
  saveSoon h := h.elim
  removeValues h := h.elim
  loadValues _ := loadValues _
  amend _ _ := .amend fun _ _ _ h _ => h
  setValue _ _ _ := .setValue (loadValues _) (fun _ _ _ h _ => h) fun _ _ h => h
  saveValues _ := writing.saveValues _ trivial
  saveValuesSoon _ _ _ h := h
  flush := writing.flush
  close := writing.close

end Storage.Holds

/-! ## What leaves them as they are -/

/-- A root is in memory with these definitions. -/
def Storage.Lists (ds : List (String × Definition)) (s : Storage) : Prop :=
  ∃ r, s.store.root = some r ∧ r.definitions = ds

namespace Storage.Lists

variable {ds : List (String × Definition)} {s t : Storage}

theorem unlocked : Unlocked (Lists ds) := Holds.unlocked

theorem writing : KeepsWriting (Always (Lists ds)) := Holds.writing

theorem suitePieces : SuitePieces (Always (Lists ds)) where
  newId _ _ _ _ h := h
  load := Holds.load
  saveSuites _ := Holds.changeRoot fun _ h => h
  saveSettings _ := Holds.changeRoot fun _ h => h

theorem pieces : Pieces .ofValues (Always (Lists ds)) := Holds.pieces

/-- What is left to do for a variable once its definition is gone. -/
theorem cleanUp (withSlots : Bool) (id : String) (d : Definition) :
    Keeps (Always (Lists ds)) (do
      let _ ← Storage.removeValues id
      if withSlots then
        let _ ← Suites.removeSlots id
      return (.ok d : Outcome Definition)) := by
  refine (Keeps.ofAction (Holds.removeValues id)).bind fun _ => ?_
  split
  · exact (suitePieces.removeSlots id).bind fun _ => .pure _
  · exact .pure _

end Storage.Lists

/-! ## New stores -/

/-- A store without a root takes over what it reads of the root document. -/
theorem Storage.load_takes {P : Storage → Prop} {s : Storage} (hunlocked : Unlocked P)
    (hroot : s.store.root = none)
    (htake : ∀ held granted, P (exec (Storage.takeRoot (s.shelf.read s.store.rootName).1)
      { s.lined held granted with shelf := (s.shelf.read s.store.rootName).2 }).2) :
    P (ended Storage.load s).2 := by
  obtain ⟨held, granted, held', granted', hrun⟩ :=
    Storage.ended_holding_eq (.root s.store.epoch) Storage.readRootOnce s
  have hnone : (s.lined held granted).store.root = none := hroot
  rw [Storage.ended_readRootOnce hnone, Storage.ended_readRoot] at hrun
  have hload : ended Storage.load s =
      ended (Storage.holding (.root s.store.epoch) Storage.readRootOnce) s := by
    unfold ended
    rw [Storage.load_none hroot]
  rw [hload, hrun]
  exact hunlocked _ held' granted' (htake held granted)

/-- What a standard root in memory makes true, and what writing keeps, holds after a new store was
loaded from a shelf without documents. -/
theorem Storage.load_new {P : Storage → Prop} {s : Storage} (hunlocked : Unlocked P)
    (hwriting : KeepsWriting (Always P)) (hroot : s.store.root = none)
    (hdocuments : ∀ name, s.shelf.find? name = none)
    (hset : ∀ held granted shelf degraded dirty, shelf.documents = s.shelf.documents →
      P { s with
        store := { s.store with
          held := held, granted := granted
          root := some .standard, rootDegraded := degraded, rootDirty := dirty }
        shelf := shelf }) : P (ended Storage.load s).2 := by
  refine load_takes hunlocked hroot fun held granted => ?_
  cases hanswer : (s.shelf.read s.store.rootName).1 with
  | error e => exact hset held granted (s.shelf.read s.store.rootName).2 true _ rfl
  | ok text =>
    cases text with
    | some text => exact absurd (find?_of_read hanswer) (by rw [hdocuments]; nofun)
    | none =>
      exact (hwriting.flushQuietly.bind fun _ => .rootOr .standard) none _
        (hset held granted (s.shelf.read s.store.rootName).2 s.store.rootDegraded true rfl)

/-- What goes for a standard root goes for a new store on a shelf without documents. -/
theorem Storage.Holds.ofNew {P : Root → Prop} {s : Storage} (hroot : s.store.root = none)
    (hdocuments : ∀ name, s.shelf.find? name = none) (hP : P .standard) :
    (ended Storage.load s).2.Holds P :=
  Storage.load_new unlocked writing hroot hdocuments fun _ _ _ _ _ _ => ⟨.standard, rfl, hP⟩

/-! ## What changes them -/

/-- The definitions have changed by one step at most. -/
def Storage.Stepped (ds : List (String × Definition)) (s : Storage) : Prop :=
  ∃ es, Relation.ReflGen DefinitionStep ds es ∧ s.Lists es

/-- What is asked of a storage changes the definitions by one step at most. -/
abbrev Steps {α : Type} (ds : List (String × Definition)) (x : Activity Storage α) : Prop :=
  Meets (Storage.Stepped ds) (Storage.Lists ds) x fun _ => Storage.Stepped ds

namespace Steps

variable {α β : Type} {ds es : List (String × Definition)}

theorem same {s : Storage} (h : s.Lists ds) : s.Stepped ds := ⟨ds, .refl, h⟩

theorem pure (a : α) : Steps ds (pure a : Activity Storage α) := fun _ h => same h

theorem ofKeeps {x : Activity Storage α} (h : Keeps (Always (Storage.Lists ds)) x) : Steps ds x :=
  Meets.iff_left.mpr fun _ hs => same (h.finish Storage.Lists.unlocked hs).1

/-- What comes after something that leaves the definitions as they are. -/
theorem after {x : Activity Storage β} {f : β → Activity Storage α}
    (hx : Meets (fun _ => False) (Storage.Lists ds) x fun _ => Storage.Lists ds)
    (hf : ∀ a, Steps ds (f a)) : Steps ds (x >>= f) := hx.never.bind hf

/-- The definitions are known when they were asked for. -/
theorem definitions {f : List (String × Definition) → Activity Storage α} (h : Steps ds (f ds)) :
    Steps ds (Storage.definitions >>= f) := fun s hs => by
  obtain ⟨r, hr, hds⟩ := hs
  rw [ended_bind_ok (Storage.ended_definitions hr), hds]
  exact h s ⟨r, hr, hds⟩

theorem saveDefinitions {x : Unit → Activity Storage α}
    (hx : Keeps (Always (Storage.Lists es)) (x ())) (hstep : DefinitionStep ds es) :
    Steps ds (Storage.saveDefinitions es >>= x) := Meets.iff_left.mpr fun s hs => by
  obtain ⟨r, hr, hds⟩ := hs
  have hsave := Storage.ended_changeRoot hr fun r => { r with definitions := es }
  refine ⟨es, .single hstep, ?_⟩
  unfold Storage.saveDefinitions
  rw [ended_bind_ok hsave]
  exact (hx.finish Storage.Lists.unlocked ⟨_, rfl, rfl⟩).1

theorem newId (kind : String) (n : Nat) : Meets (fun _ => False) (Storage.Lists ds)
    (.ofAction (Storage.newId kind n)) fun _ => Storage.Lists ds := .ok fun _ hs => ⟨_, _, rfl, hs⟩

theorem now : Meets (fun _ => False) (Storage.Lists ds) (.ofAction Storage.now)
    fun _ => Storage.Lists ds := .ok fun s hs => ⟨_, s, rfl, hs⟩

theorem create (name tag : Option String) (mode : Option Mode) :
    Steps ds (Variables.create name tag mode) := by
  unfold Variables.create
  split
  · exact pure _
  next hproblem =>
  have hname : nameProblem? name = none := by
    cases h : nameProblem? name with
    | none => rfl
    | some p =>
      rw [h] at hproblem
      cases hproblem
  have htag : tagProblem? tag = none := by
    rw [hname] at hproblem
    exact hproblem
  refine definitions ?_
  split
  · exact pure _
  next hnamed =>
  split
  · exact pure _
  next htagged =>
  split
  · exact pure _
  next mode =>
  refine after (newId "var" 5) fun id => after now fun now => ?_
  refine saveDefinitions (.pure _) (.created id mode now hname htag ?_ ?_)
  · exact Option.not_isSome_iff_eq_none.mp hnamed
  · exact Option.not_isSome_iff_eq_none.mp htagged

theorem rename (id : String) (name : Option String) : Steps ds (Variables.rename id name) := by
  unfold Variables.rename
  refine definitions ?_
  split
  · exact pure _
  next d hd =>
  split
  · exact pure _
  next hname =>
  exact after now fun now => saveDefinitions (.pure _) (.renamed hd hname now)

theorem delete (withSlots : Bool) (id : String) : Steps ds (Variables.delete withSlots id) := by
  unfold Variables.delete
  refine definitions ?_
  split
  · exact pure _
  exact saveDefinitions (Storage.Lists.cleanUp withSlots id _) (.removed id)

theorem silent {x : Activity Storage α} (h : Steps ds x) : Steps ds x.silent := Meets.silent h

end Steps

/-! ### All operations -/

/-- The operation creates, renames or deletes a variable. -/
def VariableOperation.Defines : VariableOperation → Prop
  | .create _ _ _ | .rename _ _ | .delete _ _ => True
  | _ => False

namespace Storage.Lists

variable {ds : List (String × Definition)}

theorem storeOperation {op : StoreOperation} (h : ∀ es, op ≠ .saveDefinitions es) :
    Keeps (Always (Lists ds)) op.perform := by
  have hvalues {op : StoreOperation} (hop : (Operation.ofStore op).Within .ofValues) :
      Keeps (Always (Lists ds)) op.perform := pieces.storeOperation op hop
  cases op with
  | saveDefinitions es => exact absurd rfl (h es)
  | saveSuites suites => exact suitePieces.saveSuites suites
  | saveSettings x => exact suitePieces.saveSettings x
  | save => exact .ofAction (writing.save trivial)
  | saveSoon => exact .ofAction (x := Storage.saveSoon) fun _ _ h => h
  | removeValues id => exact (Keeps.ofAction (Holds.removeValues id)).silent
  | setValue id chat v => exact hvalues ⟨trivial, trivial⟩
  | _ => exact hvalues trivial

theorem variableOperation {op : VariableOperation} (h : ¬ op.Defines) :
    Keeps (Always (Lists ds)) op.perform := by
  have hvalues {op : VariableOperation} (hop : (Operation.ofVariables op).Within .ofValues) :
      Keeps (Always (Lists ds)) op.perform := pieces.variableOperation op hop
  cases op with
  | create | rename | delete => exact absurd trivial h
  | addEntry | updateEntry | toggleEntry | deleteEntry | reorderEntries | put | navigate
  | restore =>
    exact hvalues ⟨trivial, trivial⟩
  | inherit => exact hvalues ⟨trivial, trivial, fun _ => trivial⟩
  | _ => exact hvalues trivial

end Storage.Lists

/-- The operation does not put other definitions in the place of all. -/
def Operation.Guarded (op : Operation) : Prop := ∀ ds, op ≠ .ofStore (.saveDefinitions ds)

theorem Steps.perform {ds : List (String × Definition)} {op : Operation} (h : op.Guarded) :
    Steps ds op.perform := by
  cases op with
  | ofStore op =>
    exact ofKeeps (Storage.Lists.storeOperation fun es he => h es (congrArg Operation.ofStore he))
  | ofVariables op =>
    have hothers {op : VariableOperation} (hop : ¬ op.Defines) :
        Steps ds (Operation.ofVariables op).perform := ofKeeps (Storage.Lists.variableOperation hop)
    cases op with
    | create name tag mode => exact (create name tag mode).silent
    | rename id name => exact (rename id name).silent
    | delete withSlots id => exact (delete withSlots id).silent
    | _ => exact hothers id
  | ofSuites op => exact ofKeeps (Storage.Lists.suitePieces.perform op)

/-! ## Runs -/

/-- What comes of a storage that is asked for guarded operations and is not opened anew. -/
abbrev GuardedRun : Storage → Storage → Prop := StackRun Operation.Guarded fun _ _ => False

namespace Storage.Lists

variable {ds : List (String × Definition)} {s t : Storage}

theorem step (h : s.Lists ds) (hstep : StackStep Operation.Guarded (fun _ _ => False) s t) :
    t.Stepped ds := by
  cases hstep with
  | ask op hop => exact Meets.iff_left.mp (Steps.perform hop) s h
  | elapse time => exact Steps.same (writing.elapse time none s h)
  | clock clock => exact Steps.same h
  | refuse refuses => exact Steps.same h
  | renew debounce epoch h => exact h.elim

theorem run (h : s.Lists ds) (hrun : GuardedRun s t) :
    ∃ es, Relation.ReflTransGen DefinitionStep ds es ∧ t.Lists es := by
  induction hrun with
  | refl => exact ⟨ds, .refl, h⟩
  | tail _ hstep ih =>
    obtain ⟨es, hsteps, hes⟩ := ih
    obtain ⟨fs, hstep, hfs⟩ := hes.step hstep
    exact ⟨fs, hsteps.trans hstep.to_reflTransGen, hfs⟩

/-- A new store on a shelf without documents has no definitions. -/
theorem ofNew (hroot : s.store.root = none) (hdocuments : ∀ name, s.shelf.find? name = none) :
    (ended Storage.load s).2.Lists [] :=
  Holds.ofNew hroot hdocuments rfl

end Storage.Lists

end TagLedger
