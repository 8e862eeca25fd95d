import TagLedger.Proofs.Calling

/-!
# Definitions that are found

A variable can be looked for by its identifier, its name or its tag, and from memory by its name.
In what comes of an empty store every way leads to the same definition, if variables are created
under identifiers that are not in use: names are apart because two forms of a name, the one that is
checked and the one that is stored, are the same once blanks around it are gone. Until it is removed,
a definition keeps its identifier, its tag and its mode.

    op.Unused s, op does not remove i  →  the definition under i keeps tag and mode    (Kept.perform)
    OwnedRun s t, s is new             →  every definition of t is found         (definitions_found)
-/

namespace TagLedger

variable {ds es : List (String × Definition)} {s t : Storage} {r : Root} {d : Definition}
  {i id : String}

/-! ## Looking for a definition -/

/-- Whoever looks for the definition by what it says of itself finds it. -/
structure Storage.Finds (s : Storage) (d : Definition) : Prop where
  byId : ended (Variables.find? d.id) s = (.ok (some d), s)
  byName : ended (Variables.findByName? d.name) s = (.ok (some d), s)
  byTag : ended (Variables.findByTag? d.tag) s = (.ok (some d), s)
  inMemory : ∀ chat, Variables.lookup? s.store d.name chat = some (d, s.store.value? d.id chat)

namespace Storage.Lists

theorem definitions_eq (h : s.Lists ds) : s.store.definitions = ds := by
  obtain ⟨r, hr, rfl⟩ := h
  unfold Store.definitions
  rw [hr]

theorem unique (h : s.Lists ds) (h' : s.Lists es) : ds = es :=
  h.definitions_eq.symm.trans h'.definitions_eq

theorem finds (h : s.Lists ds) (hds : Unambiguous ds) (hcallable : Callable ds)
    (hd : Json.find? ds i = some d) : s.Finds d := by
  have hnamed := hcallable.named?_eq hds hd
  have hdefinitions := h.definitions_eq
  obtain ⟨r, hr, rfl⟩ := h
  refine ⟨?_, ?_, ?_, fun chat => ?_⟩
  · rw [Variables.ended_find hr, hds.id_eq i d hd, hd]
  · unfold Variables.findByName?
    rw [ended_bind_ok (Storage.ended_definitions hr), hnamed]
    rfl
  · unfold Variables.findByTag?
    rw [ended_bind_ok (Storage.ended_definitions hr), hds.tagged?_eq hd]
    rfl
  · unfold Variables.lookup?
    rw [hdefinitions, hnamed]
    rfl

end Storage.Lists

/-- A name that can stand in a template, as it stands. -/
structure Braceable (name : String) : Prop where
  ne : name ≠ ""
  noOpen : '\x7b' ∉ name.toList
  noClose : '\x7d' ∉ name.toList
  noAt : '@' ∉ name.toList
  trimmed : Text.trimmed name = name

theorem Legal.braceable {name : String} (h : Legal name) : Braceable name where
  ne hname := h.ne (by rw [hname]; rfl)
  noOpen hc := absurd (isNameChar_plain (h.chars _ hc)).1 (by decide)
  noClose hc := absurd (isNameChar_plain (h.chars _ hc)).1 (by decide)
  noAt hc := (isNameChar_plain (h.chars _ hc)).2.1 rfl
  trimmed := by
    unfold Text.trimmed
    rw [Text.trim_of_unblank fun c hc => (isNameChar_plain (h.chars c hc)).2.2,
      String.ofList_toList]

/-! ## What the three operations leave -/

namespace Storage.Lists

/-- Nothing is created, or one definition under the identifier that is drawn. -/
theorem create (h : s.Lists ds) (name tag : Option String) (mode : Option Mode) :
    ∃ es, (ended (Variables.create name tag mode) s).2.Lists es ∧
      (es = ds ∨ ∃ d, es = Json.insert ds (Identifier.generate "var" 5 s.clock.now s.random).1 d) := by
  obtain ⟨r, hr, rfl⟩ := h
  have hsame : s.Lists r.definitions := ⟨r, hr, rfl⟩
  unfold Variables.create
  split
  · exact ⟨_, hsame, .inl rfl⟩
  rw [ended_bind_ok (Storage.ended_definitions hr)]
  split
  · exact ⟨_, hsame, .inl rfl⟩
  split
  · exact ⟨_, hsame, .inl rfl⟩
  split
  · exact ⟨_, hsame, .inl rfl⟩
  next mode =>
  let drawn : Storage := { s with random := (Identifier.generate "var" 5 s.clock.now s.random).2 }
  have hid : ended (liftM (Storage.newId "var" 5) : Activity Storage String) s =
      (.ok (Identifier.generate "var" 5 s.clock.now s.random).1, drawn) := rfl
  have hnow : ended (liftM Storage.now : Activity Storage Int) drawn = (.ok s.clock.now, drawn) := rfl
  have hdrawn : drawn.store.root = some r := hr
  unfold Storage.saveDefinitions
  rw [ended_bind_ok hid, ended_bind_ok hnow, ended_bind_ok (Storage.ended_changeRoot hdrawn _)]
  exact ⟨_, ⟨_, rfl, rfl⟩, .inr ⟨_, rfl⟩⟩

/-- Nothing is renamed, or the definition under the identifier. -/
theorem rename (h : s.Lists ds) (id : String) (name : Option String) :
    ∃ es, (ended (Variables.rename id name) s).2.Lists es ∧
      (es = ds ∨ ∃ d new now, Json.find? ds id = some d ∧
        es = Json.insert ds id { d with name := new, updatedAt := now }) := by
  obtain ⟨r, hr, rfl⟩ := h
  have hsame : s.Lists r.definitions := ⟨r, hr, rfl⟩
  unfold Variables.rename
  rw [ended_bind_ok (Storage.ended_definitions hr)]
  split
  · exact ⟨_, hsame, .inl rfl⟩
  next d hd =>
  split
  · exact ⟨_, hsame, .inl rfl⟩
  have hnow : ended (liftM Storage.now : Activity Storage Int) s = (.ok s.clock.now, s) := rfl
  unfold Storage.saveDefinitions
  rw [ended_bind_ok hnow, ended_bind_ok (Storage.ended_changeRoot hr _)]
  exact ⟨_, ⟨_, rfl, rfl⟩, .inr ⟨d, _, _, hd, rfl⟩⟩

/-- Nothing is removed, or the definition under the identifier. -/
theorem delete (h : s.Lists ds) (withSlots : Bool) (id : String) :
    ∃ es, (ended (Variables.delete withSlots id) s).2.Lists es ∧
      (es = ds ∨ es = ds.filter (·.1 != id)) := by
  obtain ⟨r, hr, rfl⟩ := h
  unfold Variables.delete
  rw [ended_bind_ok (Storage.ended_definitions hr)]
  split
  · exact ⟨_, ⟨r, hr, rfl⟩, .inl rfl⟩
  refine ⟨_, ?_, .inr rfl⟩
  have hsave := Storage.ended_changeRoot hr fun x =>
    { x with definitions := r.definitions.filter (·.1 != id) }
  unfold Storage.saveDefinitions
  rw [ended_bind_ok hsave]
  refine ((cleanUp withSlots id _).finish unlocked ?_).1
  exact ⟨_, rfl, rfl⟩

end Storage.Lists

/-! ## What a definition keeps -/

/-- A definition under this identifier is still there, with its tag and its mode. -/
def Maintains (i : String) (ds es : List (String × Definition)) : Prop :=
  ∀ d, Json.find? ds i = some d → ∃ e, Json.find? es i = some e ∧ e.tag = d.tag ∧ e.mode = d.mode

namespace Maintains

theorem refl (i : String) (ds : List (String × Definition)) : Maintains i ds ds :=
  fun d hd => ⟨d, hd, rfl, rfl⟩

theorem trans {fs : List (String × Definition)} (h : Maintains i ds es) (h' : Maintains i es fs) :
    Maintains i ds fs := fun d hd => by
  obtain ⟨e, he, htag, hmode⟩ := h d hd
  obtain ⟨f, hf, htag', hmode'⟩ := h' e he
  exact ⟨f, hf, htag'.trans htag, hmode'.trans hmode⟩

theorem insert (h : ∀ e, Json.find? ds id = some e → d.tag = e.tag ∧ d.mode = e.mode) :
    Maintains i ds (Json.insert ds id d) := fun e he => by
  by_cases hid : id = i
  · subst hid
    exact ⟨d, by rw [Json.find?_insert, if_pos rfl], h e he⟩
  · exact ⟨e, by rw [Json.find?_insert, if_neg hid, he], rfl, rfl⟩

theorem filter (hne : i ≠ id) : Maintains i ds (ds.filter (·.1 != id)) := fun d hd => by
  refine ⟨d, ?_, rfl, rfl⟩
  rw [Json.find?_filter (· != id), if_pos (bne_iff_ne.mpr hne), hd]

end Maintains

/-- If the operation creates a variable, it does so under an identifier that is not in use. -/
def Operation.Unused (s : Storage) (op : Operation) : Prop :=
  ∀ name tag mode, op = .ofVariables (.create name tag mode) → s.Fresh

/-- The operation does not remove this variable. -/
def Operation.Spares (i : String) (op : Operation) : Prop :=
  ∀ withSlots, op ≠ .ofVariables (.delete withSlots i)

/-- The definition under this identifier is maintained. -/
def Storage.Kept (i : String) (ds : List (String × Definition)) (s : Storage) : Prop :=
  ∃ es, s.Lists es ∧ Maintains i ds es

namespace Storage.Kept

theorem same (h : s.Lists ds) : s.Kept i ds := ⟨ds, h, .refl i ds⟩

theorem perform {op : Operation} (h : s.Lists ds) (hguarded : op.Guarded) (hunused : op.Unused s)
    (hspares : op.Spares i) : (ended op.perform s).2.Kept i ds := by
  have hkeeps {x : Activity Storage Unit} (hx : Keeps (Always (Storage.Lists ds)) x) :
      (ended x s).2.Kept i ds := same (hx.finish Storage.Lists.unlocked h).1
  have hsilent {α : Type} {x : Activity Storage α} (hx : (ended x s).2.Kept i ds) :
      (ended x.silent s).2.Kept i ds := by
    rw [ended_silent]
    exact hx
  cases op with
  | ofStore op =>
    exact hkeeps (Storage.Lists.storeOperation fun es he =>
      hguarded es (congrArg Operation.ofStore he))
  | ofSuites op => exact hkeeps (Storage.Lists.suitePieces.perform op)
  | ofVariables op =>
    have hothers {op : VariableOperation} (hop : ¬ op.Defines) :
        (ended (Operation.ofVariables op).perform s).2.Kept i ds :=
      hkeeps (Storage.Lists.variableOperation hop)
    cases op with
    | create name tag mode =>
      obtain ⟨es, hes, hchange⟩ := h.create name tag mode
      refine hsilent ⟨es, hes, ?_⟩
      rcases hchange with rfl | ⟨d, rfl⟩
      · exact .refl i es
      · refine .insert fun e he => ?_
        have hfresh := hunused name tag mode rfl
        unfold Storage.Fresh at hfresh
        rw [h.definitions_eq, he] at hfresh
        cases hfresh
    | rename id name =>
      obtain ⟨es, hes, hchange⟩ := h.rename id name
      refine hsilent ⟨es, hes, ?_⟩
      rcases hchange with rfl | ⟨d, new, now, hd, rfl⟩
      · exact .refl i es
      · refine .insert fun e he => ?_
        obtain rfl := Option.some.inj (hd.symm.trans he)
        exact ⟨rfl, rfl⟩
    | delete withSlots id =>
      obtain ⟨es, hes, hchange⟩ := h.delete withSlots id
      refine hsilent ⟨es, hes, ?_⟩
      rcases hchange with rfl | rfl
      · exact .refl i es
      · exact .filter fun hid => hspares withSlots (by rw [hid])
    | _ => exact hothers id

end Storage.Kept

/-! ## Runs -/

/-- What comes of a storage in which variables are created under unused identifiers, while what is
asked is as `spares` says. -/
abbrev OwnedRun (spares : Operation → Prop) : Storage → Storage → Prop :=
  Relation.ReflTransGen fun s t =>
    StackStep (fun op => op.Guarded ∧ op.Unused s ∧ spares op) (fun _ _ => False) s t

theorem OwnedRun.guarded {spares : Operation → Prop} (h : OwnedRun spares s t) :
    GuardedRun s t := by
  refine Relation.ReflTransGen.mono (fun a b hstep => ?_) s t h
  cases hstep with
  | ask op hop => exact .ask op hop.1
  | elapse time => exact .elapse time
  | clock clock => exact .clock clock
  | refuse refuses => exact .refuse refuses
  | renew debounce epoch hnever => exact hnever.elim

theorem Storage.Kept.run (h : s.Lists ds) (hrun : OwnedRun (Operation.Spares i) s t) :
    t.Kept i ds := by
  induction hrun with
  | refl => exact same h
  | tail _ hstep ih =>
    obtain ⟨es, hes, hmaintains⟩ := ih
    have hkept {u : Storage} (hu : u.Kept i es) : u.Kept i ds := by
      obtain ⟨fs, hfs, hmaintains'⟩ := hu
      exact ⟨fs, hfs, hmaintains.trans hmaintains'⟩
    cases hstep with
    | ask op hop => exact hkept (perform hes hop.1 hop.2.1 hop.2.2)
    | elapse time => exact hkept (same (Storage.Lists.writing.elapse time none _ hes))
    | clock clock => exact hkept (same hes)
    | refuse refuses => exact hkept (same hes)
    | renew debounce epoch hnever => exact hnever.elim

/-- In every state that is reached from an empty store, variables being created under unused
identifiers, each definition is stored under its own identifier, and found by that, by its name and
by its tag. No two have a name or a tag in common, and names can stand in templates. As long as it is
not deleted, a definition keeps its identifier, its tag and its mode. -/
theorem definitions_found (hnew : s.store.root = none)
    (hempty : ∀ name, s.shelf.find? name = none)
    (hrun : OwnedRun (fun _ => True) (ended Storage.load s).2 t) :
    ∃ ds, t.Lists ds ∧ (Json.keys ds).Nodup ∧
      (∀ i d, Json.find? ds i = some d → d.id = i ∧ t.Finds d ∧ Braceable d.name) ∧
      (∀ i j d e, Json.find? ds i = some d → Json.find? ds j = some e → i ≠ j →
        d.name ≠ e.name ∧ d.tag ≠ e.tag) ∧
      ∀ i d u, Json.find? ds i = some d → OwnedRun (Operation.Spares i) t u →
        ∃ es e, u.Lists es ∧ Json.find? es i = some e ∧
          e.id = d.id ∧ e.tag = d.tag ∧ e.mode = d.mode := by
  have hstart := Storage.Lists.ofNew hnew hempty
  obtain ⟨ds, hsteps, hds⟩ := hstart.run hrun.guarded
  have hapart := unambiguous_of_steps hsteps
  have hcallable := callable_of_steps hsteps
  refine ⟨ds, hds, hapart.keys, fun i d hd => ?_, fun i j d e hd he hij => ?_,
    fun i d u hd hon => ?_⟩
  · exact ⟨hapart.id_eq i d hd, hds.finds hapart hcallable hd, (hcallable.legal i d hd).braceable⟩
  · exact ⟨fun hname => hij (hcallable.apart i j d e hd he hname),
      fun htag => hij (hapart.tags i j d e hd he htag)⟩
  · obtain ⟨es, hes, hmaintains⟩ := Storage.Kept.run hds hon
    obtain ⟨e, he, htag, hmode⟩ := hmaintains d hd
    -- the identifiers are those that the definitions are stored under
    obtain ⟨fs, hsteps', hfs⟩ := hds.run hon.guarded
    obtain rfl := hes.unique hfs
    have hids := (unambiguous_of_steps (hsteps.trans hsteps')).id_eq i e he
    exact ⟨es, e, hes, he, hids.trans (hapart.id_eq i d hd).symm, htag, hmode⟩

/-- Two variables are created where nothing was. -/
def Storage.withTwo : Storage :=
  (ended Storage.load Session.bare.storage).2.asked
    [.ofVariables (.create (some " log ") (some "[summary]") (some .stack)),
      .ofVariables (.create (some "mood") (some "[mood]") (some .replace))]

/-- The first of them gets another name. -/
def renameLog : Operation := .ofVariables (.rename "var_0qyxjj" (some " diary "))

theorem unused_create {name tag : Option String} {mode : Option Mode} (h : s.Fresh) :
    (Operation.ofVariables (.create name tag mode)).Unused s := fun _ _ _ _ => h

theorem ownedRun_withTwo :
    OwnedRun (fun _ => True) (ended Storage.load Session.bare.storage).2 .withTwo := by
  refine .tail (.tail .refl (.ask _ ?_)) (.ask _ ?_)
  · refine ⟨fun _ => nofun, unused_create ?_, trivial⟩
    change Json.find? _ _ = none
    decide +kernel
  · refine ⟨fun _ => nofun, unused_create ?_, trivial⟩
    change Json.find? _ _ = none
    decide +kernel

theorem ownedRun_renameLog {spares : Operation → Prop} (h : spares renameLog) (s : Storage) :
    OwnedRun spares s (ended renameLog.perform s).2 := by
  refine .tail .refl (.ask _ ⟨fun _ => nofun, fun name tag mode hcreate => ?_, h⟩)
  cases hcreate

/-- A variable is found by its names, one after the other, and keeps its tag. -/
theorem definitions_found_renamed : ∃ (s t u : Storage) (d e : Definition),
    s.store.root = none ∧ (∀ name, s.shelf.find? name = none) ∧
      OwnedRun (fun _ => True) (ended Storage.load s).2 t ∧
      OwnedRun (Operation.Spares "var_0qyxjj") t u ∧ t.Finds d ∧ u.Finds e ∧
      d.name = "log" ∧ e.name = "diary" ∧ e.id = d.id ∧ e.tag = d.tag ∧ e.mode = d.mode := by
  let s := Session.bare.storage
  let t := Storage.withTwo
  let u := (ended renameLog.perform t).2
  let d : Definition := ⟨"var_0qyxjj", "log", "[summary]", .stack, 0, 0⟩
  let e : Definition := ⟨"var_0qyxjj", "diary", "[summary]", .stack, 0, 0⟩
  have hempty : ∀ name, s.shelf.find? name = none := fun _ => rfl
  have hrun : OwnedRun (fun _ => True) (ended Storage.load s).2 t := ownedRun_withTwo
  have hspares : renameLog.Spares "var_0qyxjj" := fun _ => nofun
  have hon : OwnedRun (Operation.Spares "var_0qyxjj") t u := ownedRun_renameLog hspares t
  obtain ⟨ds, hds, -, hfound, -, hkept⟩ := definitions_found rfl hempty hrun
  obtain ⟨es, hes, -, hfound', -⟩ :=
    definitions_found rfl hempty (hrun.trans (ownedRun_renameLog trivial t))
  have hd : Json.find? ds "var_0qyxjj" = some d := by
    rw [← hds.definitions_eq]
    decide +kernel
  have he : Json.find? es "var_0qyxjj" = some e := by
    rw [← hes.definitions_eq]
    decide +kernel
  obtain ⟨fs, f, hfs, hf, hid, htag, hmode⟩ := hkept _ d u hd hon
  obtain rfl := hfs.unique hes
  obtain rfl := Option.some.inj (hf.symm.trans he)
  exact ⟨s, t, u, d, e, rfl, hempty, hrun, hon, (hfound _ d hd).2.1,
    (hfound' _ e he).2.1, rfl, rfl, hid, htag, hmode⟩

end TagLedger
