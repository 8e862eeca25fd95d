import Mathlib.Logic.Relation
import TagLedger.Proofs.Triples

/-!
# What operations on suites do

A suite is put under its identifier, replaced by one with the same identifier, taken out, or changed
in place, and one suite is made active. There is nothing else that an operation on suites does to a
root, so what these changes keep is kept by every operation.

    Arranged r r' → r.Sound → r'.Sound                                              (Arranged.sound)
    P r s → op.perform leaves P r' where r comes to r' by such changes            (Arranges.perform)
-/

namespace TagLedger

open Schema (Yields yields_map yields_seq yields_seq_any yields_optional)

variable {α β : Type} {N : Naming} {r r' : Root}

/-! ## Changes -/

/-- One change of the suites. -/
inductive SuiteChange (suites : List (String × Suite)) : List (String × Suite) → Prop where
  | put {s : Suite} (hs : s.Sound) : SuiteChange suites (Json.insert suites s.id s)
  | replace {id : String} {old new : Suite} (hold : Json.find? suites id = some old)
      (hid : new.id = old.id) (hs : new.Sound) : SuiteChange suites (Json.insert suites id new)
  | remove (id : String) : SuiteChange suites (suites.filter (·.1 != id))
  | edit {f : String → Suite → Suite} (hid : ∀ id s, (f id s).id = s.id)
      (hs : ∀ id s, s.Sound → (f id s).Sound) :
      SuiteChange suites (suites.map fun x => (x.1, f x.1 x.2))

/-- One change of the root by an operation on suites. -/
inductive Arranged (r : Root) : Root → Prop where
  | suites {suites : List (String × Suite)} (h : SuiteChange r.suites suites) :
      Arranged r { r with suites := suites }
  | active (id : Option String) :
      Arranged r { r with settings := { r.settings with activeSuite := id } }

/-- A suite of a sound root is sound. -/
theorem Root.Sound.find (h : r.Sound) {id : String} {s : Suite}
    (hs : Json.find? r.suites id = some s) : s.Sound := h.suites _ (Json.mem_of_find? hs)

theorem SuiteChange.keys {suites new : List (String × Suite)} (h : SuiteChange suites new)
    (hkeys : (Json.keys suites).Nodup) : (Json.keys new).Nodup := by
  cases h with
  | put hs => exact Json.nodup_keys_insert hkeys _ _
  | replace hold hid hs => exact Json.nodup_keys_insert hkeys _ _
  | remove id => exact Json.nodup_keys_filter hkeys _
  | @edit f hid hs =>
    rw [Json.keys_map f]
    exact hkeys

theorem SuiteChange.sound {suites new : List (String × Suite)} (h : SuiteChange suites new)
    (hsuites : ∀ s ∈ suites, s.2.Sound) : ∀ s ∈ new, s.2.Sound := by
  intro x hx
  cases h with
  | put hs => exact (Json.mem_insert hx).elim (fun e => e ▸ hs) (hsuites x)
  | replace hold hid hs => exact (Json.mem_insert hx).elim (fun e => e ▸ hs) (hsuites x)
  | remove id => exact hsuites x (List.mem_of_mem_filter hx)
  | edit hid hs =>
    obtain ⟨old, hold, rfl⟩ := List.mem_map.mp hx
    exact hs _ _ (hsuites old hold)

namespace Arranged

theorem sound (h : Arranged r r') (hr : r.Sound) : r'.Sound := by
  cases h with
  | suites h => exact hr.withSuites (h.keys hr.suiteKeys) (h.sound hr.suites)
  | active id => exact hr.withSettings { hr.settings with }

theorem definitions (h : Arranged r r') : r'.definitions = r.definitions := by
  cases h <;> rfl

end Arranged

/-! ## What they lead to -/

/-- The storage serves a root to which `r` has come. -/
def LedTo (P : Root → Storage → Prop) (r : Root) (s : Storage) : Prop :=
  ∃ r', Relation.ReflTransGen Arranged r r' ∧ P r' s

/-- `P` says of a storage that it serves a sound root, and goes on to say so when the root
changes. -/
structure Arranges (P : Root → Storage → Prop) : Prop where
  sound : ∀ {r s}, P r s → r.Sound
  inMemory : ∀ {r s}, P r s → s.store.root = some r
  random : ∀ {r s} random, P r s → P r { s with random := random }
  change : ∀ {r s} (f : Root → Root), P r s → Arranged r (f r) →
    ∃ t, ended (Storage.changeRoot f) s = (.ok (), t) ∧ P (f r) t

/-- Something that leaves the root in place. -/
abbrev Knows (P : Root → Storage → Prop) (r : Root) (x : Activity Storage α) (A : α → Prop) :
    Prop :=
  Meets (LedTo P r) (P r) x fun a s => A a ∧ P r s

/-- Something that changes the root as operations on suites do. -/
abbrev Leads (P : Root → Storage → Prop) (r : Root) (x : Activity Storage α) : Prop :=
  Meets (LedTo P r) (P r) x fun _ => LedTo P r

variable {P : Root → Storage → Prop}

theorem LedTo.refl {s : Storage} (h : P r s) : LedTo P r s := ⟨r, .refl, h⟩

namespace Knows

theorem pure {a : α} {A : α → Prop} (h : A a) : Knows P r (pure a : Activity Storage α) A :=
  fun _ hs => ⟨h, hs⟩

theorem throw {A : α → Prop} (e : Failure) : Knows P r (throw e : Activity Storage α) A :=
  fun _ hs => .refl hs

theorem bind {x : Activity Storage α} {f : α → Activity Storage β} {A : α → Prop} {B : β → Prop}
    (hx : Knows P r x A) (hf : ∀ a, A a → Knows P r (f a) B) : Knows P r (x >>= f) B :=
  Meets.bind hx fun a => .assuming (hf a)

/-- What comes after something that leaves the root in place. -/
theorem thenLeads {x : Activity Storage α} {f : α → Activity Storage β} {A : α → Prop}
    (hx : Knows P r x A) (hf : ∀ a, A a → Leads P r (f a)) : Leads P r (x >>= f) :=
  Meets.bind hx fun a => .assuming (hf a)

theorem leads {x : Activity Storage α} {A : α → Prop} (h : Knows P r x A) : Leads P r x :=
  h.mono (fun _ hs => hs) fun _ _ hs => .refl hs.2

theorem now : Knows P r (.ofAction Storage.now) fun _ => True :=
  .ok fun s hs => ⟨_, s, rfl, trivial, hs⟩

theorem context : Knows P r (.ofAction Storage.context) fun _ => True :=
  .ok fun s hs => ⟨_, s, rfl, trivial, hs⟩

/-- What a check gives is as the check says. -/
theorem valid {A : α → Prop} {x : Schema.Checked α} (h : Yields A x) :
    Knows P r (Suites.valid x) A := by
  cases x with
  | valid a => exact .pure (h a rfl)
  | invalid is => exact .throw _

end Knows

namespace Leads

theorem pure (a : α) : Leads P r (pure a : Activity Storage α) := fun _ hs => .refl hs

/-- Something that changes the root, and then an answer. -/
theorem thenPure {x : Activity Storage α} (hx : Leads P r x) (f : α → β) :
    Leads P r (x >>= fun a => Pure.pure (f a)) := hx.bind fun _ => fun _ hs => hs

end Leads

/-! ## What is given stays sound -/

/-- What an operation is asked to store is sound. -/
def SuiteOperation.Sound : SuiteOperation → Prop
  | .create _ _ trigger _ => ∀ t, trigger = some t → t.Sound
  | .addChat _ _ range _ _ _ => ∀ x, range = some x → x.Sound
  | _ => True

theorem withoutSlots_id (id : String) (now : Int) (s : Suite) :
    (Suites.withoutSlots id now s).id = s.id := by
  unfold Suites.withoutSlots
  dsimp only
  split <;> rfl

theorem withoutSlots_sound {id : String} {now : Int} {s : Suite} (h : s.Sound) :
    (Suites.withoutSlots id now s).Sound := by
  unfold Suites.withoutSlots
  dsimp only
  split
  · exact h
  · exact { h with items := fun i hi => h.items i (List.mem_of_mem_filter hi) }

/-- An edited suite keeps its identifier. -/
theorem edit_sound {s : Suite} (h : s.Sound) (updates : List (String × Json))
    (ctx : Schema.Context) :
    Yields (fun new => new.id = s.id ∧ new.Sound) (Suites.edit s updates ctx) := by
  refine yields_seq_any ?_
  refine yields_seq (Q := fun items => ∀ i ∈ items, i.Sound) ?_ ?_
  · refine yields_seq (Q := Trigger.Sound) ?_ ?_
    · refine yields_seq_any ?_
      exact yields_map fun _ _ _ trigger htrigger items hitems _ => ⟨rfl, htrigger, hitems⟩
    · exact yields_optional h.trigger fun _ j _ _ => Trigger.sound_of_decode
  · exact yields_optional h.items fun _ j _ _ => sound_of_decode_items

theorem editItem_sound {item : Item} (h : item.Sound) (updates : List (String × Json))
    (ctx : Schema.Context) : Yields Item.Sound (Suites.editItem item updates ctx) := by
  rcases item with p | v | c | c
  · iterate 2 refine yields_seq_any ?_
    exact yields_map fun _ _ _ _ => trivial
  · exact yields_map fun _ _ => trivial
  · iterate 2 refine yields_seq_any ?_
    refine yields_seq (Q := RangeRule.Sound) ?_ ?_
    · refine yields_seq_any ?_
      exact yields_map fun _ _ _ range hrange _ _ => hrange
    · exact yields_optional h fun _ j _ _ => RangeRule.sound_of_decode
  · exact yields_map fun _ _ => trivial

theorem mem_insertAt {items : List Item} {item i : Item} {place : Option Int}
    (h : i ∈ Suites.insertAt items item place) : i = item ∨ i ∈ items := by
  unfold Suites.insertAt at h
  grind [List.mem_of_mem_take, List.mem_of_mem_drop]

theorem insertAt_sound {items : List Item} (h : ∀ i ∈ items, i.Sound) {item : Item}
    (hitem : item.Sound) (place : Option Int) :
    ∀ i ∈ Suites.insertAt items item place, i.Sound := fun i hi =>
  (mem_insertAt hi).elim (fun e => e ▸ hitem) (h i)

theorem mem_replaceItem {id : String} {new i : Item} {items : List Item}
    (h : i ∈ Suites.replaceItem id new items) : i = new ∨ i ∈ items := by
  induction items with
  | nil => cases h
  | cons j items ih =>
    unfold Suites.replaceItem at h
    split at h
    · exact (List.mem_cons.mp h).imp_right (List.mem_cons_of_mem j)
    · rcases List.mem_cons.mp h with rfl | h
      · exact .inr List.mem_cons_self
      · exact (ih h).imp_right (List.mem_cons_of_mem j)

theorem replaceItem_sound (id : String) {new : Item} (hnew : new.Sound) {items : List Item}
    (h : ∀ i ∈ items, i.Sound) : ∀ i ∈ Suites.replaceItem id new items, i.Sound := fun i hi =>
  (mem_replaceItem hi).elim (fun e => e ▸ hnew) (h i)

/-- The items in another order are items of the suite. -/
theorem mem_itemsInOrder {s : Suite} {ids : List String} :
    ∀ i ∈ Suites.itemsInOrder s ids, i ∈ s.items := by
  unfold Suites.itemsInOrder
  refine List.foldlRecOn (motive := fun out => ∀ i ∈ out, i ∈ s.items) ids _
    (fun i hi => by cases hi) fun out hout id _ => ?_
  split
  · next item hitem =>
    split
    · exact hout
    · intro i hi
      rcases List.mem_append.mp hi with hi | hi
      · exact hout i hi
      · rw [List.mem_singleton.mp hi]
        exact List.mem_of_find?_eq_some hitem
  · exact hout

/-! ## Operations -/

namespace Arranges

variable (h : Arranges P)

include h

theorem newId (kind : String) (n : Nat) :
    Knows P r (.ofAction (Storage.newId kind n)) fun _ => True :=
  .ok fun _ hs => ⟨_, _, rfl, trivial, h.random _ hs⟩

theorem load : Knows P r Storage.load fun a => a = r :=
  .ok fun s hs => ⟨r, s, Storage.ended_load_some (h.inMemory hs), rfl, hs⟩

theorem suites : Knows P r Storage.suites fun a => a = r.suites :=
  h.load.bind fun _ ha => .pure (congrArg Root.suites ha)

theorem settings : Knows P r Storage.settings fun a => a = r.settings :=
  h.load.bind fun _ ha => .pure (congrArg Root.settings ha)

theorem findSuite (id : String) :
    Knows P r (Suites.find? id) fun s => s = Json.find? r.suites id :=
  h.suites.bind fun _ hs => .pure (by rw [hs])

/-- The root can be taken to be sound. -/
theorem ofSound {x : Activity Storage α} (hx : r.Sound → Leads P r x) : Leads P r x :=
  fun s hs => hx (h.sound hs) s hs

/-- The root changes, and then something else is done. -/
theorem changeRoot {f : Root → Root} (hf : Arranged r (f r)) {x : Unit → Activity Storage α}
    (hx : Leads P (f r) (x ())) : Leads P r (Storage.changeRoot f >>= x) := by
  refine Meets.iff_left.mpr fun s hs => ?_
  obtain ⟨t, ht, hp⟩ := h.change f hs hf
  rw [ended_bind_ok ht]
  obtain ⟨r', hr', hend⟩ := Meets.iff_left.mp hx t hp
  exact ⟨r', .head hf hr', hend⟩

/-- The root changes, and that is all. -/
theorem changing {f : Root → Root} (hf : Arranged r (f r)) : Leads P r (Storage.changeRoot f) :=
  Meets.iff_left.mpr fun s hs => by
    obtain ⟨t, ht, hp⟩ := h.change f hs hf
    rw [ht]
    exact ⟨f r, .single hf, hp⟩

theorem saveSuites {suites : List (String × Suite)} (hsuites : SuiteChange r.suites suites)
    {x : Unit → Activity Storage α} (hx : Leads P { r with suites := suites } (x ())) :
    Leads P r (Storage.saveSuites suites >>= x) :=
  h.changeRoot (f := fun r => { r with suites := suites }) (.suites hsuites) hx

theorem removeSlots (id : String) : Leads P r (Suites.removeSlots id) := by
  unfold Suites.removeSlots
  refine h.suites.thenLeads fun suites hsuites => .ite ?_ (Leads.pure _)
  subst hsuites
  refine Knows.now.thenLeads fun now _ => ?_
  have hedit : SuiteChange r.suites (r.suites.map fun x => (x.1, Suites.withoutSlots id now x.2)) :=
    .edit (fun _ s => withoutSlots_id id now s) fun _ _ => withoutSlots_sound
  exact h.saveSuites hedit (Leads.pure _)

theorem setActive (id : Option String) : Leads P r (Suites.setActive id) := by
  unfold Suites.setActive
  refine h.settings.thenLeads fun x hx => ?_
  subst hx
  exact h.changing (.active id)

theorem active : Leads P r Suites.active := by
  unfold Suites.active
  refine h.settings.thenLeads fun x _ => ?_
  split
  · split
    · exact Leads.pure _
    · exact (h.findSuite _).leads
  · exact Leads.pure _

theorem activate (id : String) : Leads P r (Suites.activate id) := by
  unfold Suites.activate
  refine (h.findSuite id).thenLeads fun s _ => ?_
  split
  · exact Leads.pure _
  · exact (h.setActive _).thenPure _

theorem create (name : Option String) (enabled : Bool) {trigger : Option Trigger}
    (htrigger : ∀ t, trigger = some t → t.Sound) (useSnapshot : Option Bool) :
    Leads P r (Suites.create name enabled trigger useSnapshot) := by
  have hnew : (trigger.getD .manual).Sound := by
    cases trigger with
    | none => exact nofun
    | some t => exact htrigger t rfl
  unfold Suites.create
  refine h.suites.thenLeads fun suites hsuites => ?_
  subst hsuites
  refine (h.newId "suite" 5).thenLeads fun id _ => ?_
  refine Knows.now.thenLeads fun now _ => ?_
  refine h.saveSuites (.put (s := ⟨id, _, _, _, _, _, _, _⟩) ⟨hnew, fun i hi => by cases hi⟩) ?_
  exact .ite ((h.setActive _).thenPure _) (Leads.pure _)

theorem delete (id : String) : Leads P r (Suites.delete id) := by
  unfold Suites.delete
  refine h.suites.thenLeads fun suites hsuites => ?_
  subst hsuites
  split
  · exact Leads.pure _
  · refine h.saveSuites (.remove id) ?_
    refine h.settings.thenLeads fun x _ => ?_
    exact .ite ((h.setActive _).thenPure _) (Leads.pure _)

theorem update (id : String) (updates : List (String × Json)) :
    Leads P r (Suites.update id updates) := h.ofSound fun hr => by
  unfold Suites.update
  refine h.suites.thenLeads fun suites hsuites => ?_
  subst hsuites
  split
  · exact Leads.pure _
  next s hfind =>
  refine Knows.context.thenLeads fun ctx _ => ?_
  refine (Knows.valid (edit_sound (hr.find hfind) updates ctx)).thenLeads fun new hnew => ?_
  exact h.saveSuites (.replace hfind hnew.1 hnew.2) (Leads.pure _)

theorem setItems (id : String) {items : List Item} (hitems : ∀ i ∈ items, i.Sound) :
    Leads P r (Suites.setItems id items) := by
  unfold Suites.setItems
  refine h.suites.thenLeads fun suites hsuites => ?_
  subst hsuites
  refine Knows.now.thenLeads fun now _ => ?_
  let f (key : String) (s : Suite) : Suite :=
    if key == id then { s with items := items, updatedAt := now } else s
  have hedit : SuiteChange r.suites (r.suites.map fun x => (x.1, f x.1 x.2)) := by
    refine .edit (fun key s => ?_) fun key s hs => ?_
    · simp only [f]
      split <;> rfl
    · simp only [f]
      split
      · exact { trigger := hs.trigger, items := hitems }
      · exact hs
  have hsame : (fun s : String × Suite => if s.1 == id
      then (s.1, { s.2 with items := items, updatedAt := now }) else s) =
      fun x => (x.1, f x.1 x.2) := by
    funext x
    simp only [f]
    split <;> rfl
  rw [hsame]
  exact h.changing (.suites hedit)

theorem addItem (id : String) (place : Option Int)
    {make : Suite → Activity Storage (Option Item)}
    (hmake : ∀ s, Knows P r (make s) fun i => ∀ item, i = some item → item.Sound) :
    Leads P r (Suites.addItem id place make) := h.ofSound fun hr => by
  unfold Suites.addItem
  refine (h.findSuite id).thenLeads fun s hs => ?_
  split
  · exact Leads.pure _
  next s =>
  have hitems := (hr.find hs.symm).items
  refine (hmake s).thenLeads fun i hi => ?_
  split
  · exact Leads.pure _
  · exact (h.setItems id (insertAt_sound hitems (hi _ rfl) place)).thenPure _

theorem addPrompt (id content name : String) (place : Option Int) :
    Leads P r (Suites.addPrompt id content name place) :=
  h.addItem id place fun _ => (h.newId "item" 5).bind fun _ _ => .pure fun item hitem => by
    cases hitem
    exact trivial

theorem addSlot (id variableId : String) (place : Option Int) :
    Leads P r (Suites.addSlot id variableId place) := h.addItem id place fun s => by
  refine .ite (Knows.pure fun item hitem => by cases hitem) (Knows.pure fun item hitem => ?_)
  cases hitem
  exact trivial

theorem addChat (id name : String) {range : Option RangeRule}
    (hrange : ∀ x, range = some x → x.Sound) (excludeUser : Bool) (scripts : Option ScriptSet)
    (place : Option Int) : Leads P r (Suites.addChat id name range excludeUser scripts place) :=
  h.addItem id place fun _ => (h.newId "item" 5).bind fun _ _ => .pure fun item hitem => by
    cases hitem
    have hstandard : RangeRule.standard.Sound := fun name => RangeKind.noConfusion
    cases range with
    | none => exact hstandard
    | some x => exact hrange x rfl

theorem addCharacter (id characterId part label : String) (entryUid : Option Int) :
    Leads P r (Suites.addCharacter id characterId part label entryUid) :=
  h.addItem id none fun s => by
    refine .ite (Knows.pure fun item hitem => by cases hitem) ?_
    refine (h.newId "item" 5).bind fun itemId _ => ?_
    refine Knows.context.bind fun ctx _ => ?_
    have hany : Yields (fun _ => True) ((Schema.oneOf CharacterPart.named ctx (.str part)).below
      (.key "sub_type")) := fun _ _ => trivial
    refine (Knows.valid hany).bind fun kind _ => ?_
    refine .pure fun item hitem => ?_
    cases hitem
    exact trivial

theorem updateItem (id itemId : String) (updates : List (String × Json)) :
    Leads P r (Suites.updateItem id itemId updates) := h.ofSound fun hr => by
  unfold Suites.updateItem
  refine (h.findSuite id).thenLeads fun s hs => ?_
  split
  · exact Leads.pure _
  next s =>
  have hitems := (hr.find hs.symm).items
  split
  · exact Leads.pure _
  next item hitem =>
  have hsound := hitems item (List.mem_of_find?_eq_some hitem)
  refine Knows.context.thenLeads fun ctx _ => ?_
  refine (Knows.valid (editItem_sound hsound updates ctx)).thenLeads fun new hnew => ?_
  exact (h.setItems id (replaceItem_sound itemId hnew hitems)).thenPure _

theorem removeItem (id itemId : String) : Leads P r (Suites.removeItem id itemId) :=
  h.ofSound fun hr => by
    unfold Suites.removeItem
    refine (h.findSuite id).thenLeads fun s hs => ?_
    split
    · exact Leads.pure _
    next s =>
    split
    · exact Leads.pure _
    have hitems : ∀ i ∈ s.items.eraseP fun i => i.id == itemId, i.Sound := fun i hi =>
      (hr.find hs.symm).items i (List.mem_of_mem_eraseP hi)
    exact (h.setItems id hitems).thenPure _

theorem reorderItems (id : String) (ids : List String) :
    Leads P r (Suites.reorderItems id ids) := h.ofSound fun hr => by
  unfold Suites.reorderItems
  refine (h.findSuite id).thenLeads fun s hs => ?_
  split
  · exact Leads.pure _
  next s =>
  have hitems : ∀ i ∈ Suites.itemsInOrder s ids, i.Sound := fun i hi =>
    (hr.find hs.symm).items i (mem_itemsInOrder i hi)
  exact .ite (Leads.pure _) ((h.setItems id hitems).thenPure _)

/-- Every operation on suites changes the root step by step. -/
theorem perform {op : SuiteOperation} (hop : op.Sound) : Leads P r op.perform := by
  have hquiet {γ : Type} {x : Activity Storage γ} (hx : Leads P r x) : Leads P r x.silent :=
    Meets.silent hx
  cases op with
  | list => exact hquiet (h.suites.leads.thenPure _)
  | find id => exact hquiet (h.findSuite id).leads
  | active => exact hquiet h.active
  | setActive id => exact h.setActive id
  | activate id => exact hquiet (h.activate id)
  | create name enabled trigger useSnapshot =>
    exact hquiet (h.create name enabled hop useSnapshot)
  | delete id => exact hquiet (h.delete id)
  | update id updates => exact hquiet (h.update id updates)
  | addPrompt id content name place => exact hquiet (h.addPrompt id content name place)
  | addSlot id variableId place => exact hquiet (h.addSlot id variableId place)
  | addChat id name range excludeUser scripts place =>
    exact hquiet (h.addChat id name hop excludeUser scripts place)
  | addCharacter id characterId part label entryUid =>
    exact hquiet (h.addCharacter id characterId part label entryUid)
  | updateItem id itemId updates => exact hquiet (h.updateItem id itemId updates)
  | removeItem id itemId => exact hquiet (h.removeItem id itemId)
  | reorderItems id ids => exact hquiet (h.reorderItems id ids)
  | removeSlots variableId => exact hquiet (h.removeSlots variableId)
  | enabledVariables id => exact hquiet ((h.findSuite id).leads.thenPure _)
  | visibleItems id => exact hquiet ((h.findSuite id).leads.thenPure _)

end Arranges

end TagLedger
