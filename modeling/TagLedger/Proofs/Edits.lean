import TagLedger.Proofs.Arranging

/-!
# Edits

Every operation on variables and suites keeps the root sound, and gives values only to variables
that are defined, if it is asked to give values only to those and to store only sound things.

    op.Fits s → op.perform leaves a storage settled that was open          (Open.perform)
-/

namespace TagLedger

open Storage

variable {N : Naming} {r : Root} {chat : String} {α : Type}

/-! ## Roots -/

theorem Open.inMemory {s : Storage} (h : Open N r s) : s.store.root = some r := by
  obtain ⟨values, hs, -⟩ := h
  exact hs.inMemory

theorem Open.sound {s : Storage} (h : Open N r s) : r.Sound := by
  obtain ⟨values, hs, -⟩ := h
  exact hs.contents.sound

/-- A storage that serves a root goes on to serve one when the suites change. -/
theorem Open.arranges : Arranges (Open N) where
  sound h := h.sound
  inMemory h := h.inMemory
  random random h := by
    obtain ⟨values, hs, hd⟩ := h
    exact ⟨values, hs.quiet, hd⟩
  change f h hf := by
    obtain ⟨values, hs, hd⟩ := h
    have hcontents : Contents N (f _) values :=
      { hs.contents with sound := hf.sound hs.contents.sound }
    obtain ⟨t, ht, hsynced⟩ := hs.changeRoot f hcontents
    refine ⟨t, ht, values, hsynced, fun c hc id hid => ?_⟩
    rw [hf.definitions]
    exact hd c hc id hid

/-- The root in an open storage can be taken to be sound. -/
theorem Settles.sound {x : Activity Storage α} (h : r.Sound → Settles N r x) : Settles N r x :=
  fun s hs => h hs.sound s hs

namespace Settles

/-- The root changes, and then something else is done. -/
theorem changeRoot {f : Root → Root} (hsound : r.Sound → (f r).Sound)
    (hdefined : Json.keys r.definitions ⊆ Json.keys (f r).definitions)
    {x : Unit → Activity Storage α} (hx : ∀ u, Settles N (f r) (x u)) :
    Settles N r (Storage.changeRoot f >>= x) :=
  (Meets.changeRoot hsound hdefined).bind hx

/-- The root changes, and that is all. -/
theorem changing {f : Root → Root} (hsound : r.Sound → (f r).Sound)
    (hdefined : Json.keys r.definitions ⊆ Json.keys (f r).definitions) :
    Settles N r (Storage.changeRoot f) :=
  (Meets.changeRoot hsound hdefined).mono (fun _ hs => hs) fun _ _ hs => hs.settled

/-- Something that settles, and then an answer. -/
theorem thenPure {β : Type} {x : Activity Storage α} (hx : Settles N r x) (f : α → β) :
    Settles N r (x >>= fun a => Pure.pure (f a)) := hx.bind fun _ => fun _ hs => hs

theorem pure (a : α) : Settles N r (pure a : Activity Storage α) := fun _ hs => hs.settled

theorem throw (e : Failure) : Settles N r (throw e : Activity Storage α) := fun _ hs => hs.settled

theorem saveDefinitions {ds : List (String × Definition)} (hkeys : (Json.keys ds).Nodup)
    (hdefined : Json.keys r.definitions ⊆ Json.keys ds) {x : Unit → Activity Storage α}
    (hx : ∀ u, Settles N { r with definitions := ds } (x u)) :
    Settles N r (Storage.saveDefinitions ds >>= x) :=
  changeRoot (fun h => h.withDefinitions hkeys) hdefined hx

theorem setValue (hc : N.used chat) {id : String} (hid : id ∈ Json.keys r.definitions) (v : Value)
    {x : Unit → Activity Storage α} (hx : ∀ u, Settles N r (x u)) :
    Settles N r (Storage.setValue id chat v >>= x) :=
  (Keeping.setValue hc hid v).thenSettles fun u _ => hx u

theorem editValue (hc : N.used chat) {id : String} (hid : id ∈ Json.keys r.definitions) (v : Value)
    {x : Unit → Activity Storage α} (hx : ∀ u, Settles N r (x u)) :
    Settles N r (Storage.editValue id chat v >>= x) :=
  (Keeping.editValue hc hid v).thenSettles fun u _ => hx u

/-! ## Variables -/

theorem createVariable (name tag : Option String) (mode : Option Mode) :
    Settles N r (Variables.create name tag mode) := .sound fun hr => by
  unfold Variables.create
  split
  · exact pure _
  · refine Keeping.definitions.thenSettles fun ds hds => ?_
    subst hds
    split
    · exact pure _
    split
    · exact pure _
    split
    · exact pure _
    · refine (Keeping.newId "var" 5).thenSettles fun id _ => ?_
      refine Keeping.now.thenSettles fun now _ => ?_
      refine saveDefinitions (Json.nodup_keys_insert hr.definitionKeys _ _) ?_ fun _ => pure _
      exact fun x hx => Json.mem_keys_insert.mpr (Or.inr hx)

theorem rename (id : String) (name : Option String) :
    Settles N r (Variables.rename id name) := .sound fun hr => by
  unfold Variables.rename
  refine Keeping.definitions.thenSettles fun ds hds => ?_
  subst hds
  split
  · exact pure _
  split
  · exact pure _
  · refine Keeping.now.thenSettles fun now _ => ?_
    refine saveDefinitions (Json.nodup_keys_insert hr.definitionKeys _ _) ?_ fun _ => pure _
    exact fun x hx => Json.mem_keys_insert.mpr (Or.inr hx)

/-- What changes the root as operations on suites do settles. -/
theorem ofLeads {x : Activity Storage α} (h : Leads (Open N) r x) : Settles N r x :=
  Meets.iff_left.mpr fun s hs => by
    obtain ⟨r', -, hopen⟩ := Meets.iff_left.mp h s hs
    exact ⟨r', hopen⟩

theorem removeSlots (id : String) : Settles N r (Suites.removeSlots id) :=
  ofLeads (Open.arranges.removeSlots id)

/-- The definition goes first, and its values in all chats right after it. -/
theorem removeDefinition (id : String) {x : Nat → Activity Storage α}
    (hx : ∀ n, Settles N { r with definitions := r.definitions.filter (·.1 != id) } (x n)) :
    Settles N r (do
      Storage.saveDefinitions (r.definitions.filter (·.1 != id))
      let n ← Storage.removeValues id
      x n) := by
  refine Meets.bind (Q := fun _ s => ∃ values,
    Synced N { r with definitions := r.definitions.filter (·.1 != id) } values [] s ∧
      Defined r values) ?_ fun _ => Meets.bind ?_ hx
  · refine .ok fun s ⟨values, hs, hd⟩ => ?_
    have hkeys := Json.nodup_keys_filter hs.contents.sound.definitionKeys fun d => d.1 != id
    obtain ⟨t, ht, hsynced⟩ := hs.changeRoot
      (fun r' => { r' with definitions := r.definitions.filter (·.1 != id) })
      { hs.contents with sound := hs.contents.sound.withDefinitions hkeys }
    exact ⟨(), t, ht, values, hsynced, hd⟩
  · refine .ok fun s ⟨values, hs, hd⟩ => ?_
    obtain ⟨n, values', t, ht, hsynced, hkeys⟩ := hs.removeValues id
    refine ⟨n, t, ht, values', hsynced, fun c hc key hkey => ?_⟩
    obtain ⟨hout, vs, hvs, hsub⟩ := hkeys c hc
    obtain ⟨d, hmem, rfl⟩ := List.mem_map.mp (hd _ hvs key (hsub hkey))
    refine List.mem_map_of_mem (List.mem_filter.mpr ⟨hmem, bne_iff_ne.mpr ?_⟩)
    rintro rfl
    exact hout hkey

theorem deleteVariable (withSlots : Bool) (id : String) :
    Settles N r (Variables.delete withSlots id) := by
  unfold Variables.delete
  refine Keeping.definitions.thenSettles fun ds hds => ?_
  subst hds
  split
  · exact pure _
  · refine removeDefinition id fun n => ?_
    split
    · exact (removeSlots id).thenPure _
    · exact pure _

/-! ## Values -/

/-- A stack that is not empty belongs to a variable that is defined. -/
theorem stack (hc : N.used chat) (id : String) : Keeping N r (Variables.stack id chat) fun s =>
    s ≠ .empty → id ∈ Json.keys r.definitions := by
  unfold Variables.stack
  refine (Keeping.getValue hc id).bind fun v hv => ?_
  split
  · exact .pure fun _ => hv rfl
  · exact .pure fun h => absurd rfl h

/-- A slot that is not empty belongs to a variable that is defined. -/
theorem slot (hc : N.used chat) (id : String) : Keeping N r (Variables.slot id chat) fun s =>
    s ≠ .empty → id ∈ Json.keys r.definitions := by
  unfold Variables.slot
  refine (Keeping.getValue hc id).bind fun v hv => ?_
  split
  · exact .pure fun _ => hv rfl
  · exact .pure fun h => absurd rfl h

theorem addEntry (hc : N.used chat) {id : String} (hid : id ∈ Json.keys r.definitions)
    (content floors : String) :
    Keeping N r (Variables.addEntry id chat content floors) fun _ => True := by
  unfold Variables.addEntry
  refine (stack hc id).bind fun s _ => ?_
  refine Keeping.now.bind fun now _ => ?_
  exact (Keeping.editValue hc hid _).bind fun _ _ => .pure trivial

theorem changeEntry (hc : N.used chat) (id : String) (entry : Int) (f : Entry → Entry) :
    Settles N r (Variables.changeEntry id chat entry f) := by
  unfold Variables.changeEntry
  refine (stack hc id).thenSettles fun s hs => ?_
  split
  · exact pure _
  · next e he =>
    refine editValue hc (hs ?_) _ fun _ => pure _
    rintro rfl
    cases he

theorem deleteEntry (hc : N.used chat) (id : String) (entry : Int) :
    Settles N r (Variables.deleteEntry id chat entry) := by
  unfold Variables.deleteEntry
  refine (stack hc id).thenSettles fun s hs => ?_
  split
  · exact pure _
  · next e he =>
    refine editValue hc (hs ?_) _ fun _ => pure _
    rintro rfl
    cases he

theorem reorderEntries (hc : N.used chat) (id : String) (order : List Int) :
    Settles N r (Variables.reorderEntries id chat order) := by
  unfold Variables.reorderEntries
  refine (stack hc id).thenSettles fun s hs => ?_
  split
  · exact pure _
  · next hne =>
    split
    · exact pure _
    · refine editValue hc (hs ?_) _ fun _ => pure _
      rintro rfl
      exact hne rfl

theorem put (hc : N.used chat) {id : String} (hid : id ∈ Json.keys r.definitions)
    (content floors : String) :
    Keeping N r (Variables.put id chat content floors) fun _ => True := by
  unfold Variables.put
  refine (slot hc id).bind fun s _ => ?_
  refine Keeping.now.bind fun now _ => ?_
  exact (Keeping.editValue hc hid _).bind fun _ _ => .pure trivial

theorem navigate (hc : N.used chat) (id word : String) :
    Settles N r (Variables.navigate id chat word) := by
  unfold Variables.navigate
  split
  · exact pure _
  · next d hd =>
    refine (slot hc id).thenSettles fun s hs => ?_
    split
    · exact pure _
    · next s' hs' =>
      refine editValue hc (hs ?_) _ fun _ => pure _
      rintro rfl
      cases hs'

theorem restore (hc : N.used chat) (id : String) (version : Int) :
    Settles N r (Variables.restore id chat version) := by
  unfold Variables.restore
  refine (slot hc id).thenSettles fun s hs => ?_
  refine Keeping.now.thenSettles fun now _ => ?_
  split
  · exact pure _
  · next s' hs' =>
    refine editValue hc (hs ?_) _ fun _ => pure _
    rintro rfl
    unfold Slot.restore? at hs'
    split at hs' <;> cases hs'

theorem shown (hc : N.used chat) (id : String) : Settles N r (Variables.shown id chat) := by
  unfold Variables.shown
  refine (slot hc id).thenSettles fun s _ => ?_
  split
  · exact pure _
  · exact throw _

theorem copyInto (hc : N.used chat) (floor : Option Int) (vs : List (String × Value))
    (hvs : ∀ v ∈ vs, v.1 ∈ Json.keys r.definitions) :
    Settles N r (Variables.copyInto chat floor vs) := by
  induction vs with
  | nil => exact pure _
  | cons v vs ih =>
    have ih := ih fun w hw => hvs w (List.mem_cons_of_mem v hw)
    unfold Variables.copyInto
    split
    · exact throw _
    · exact ih
    · refine setValue hc (hvs v List.mem_cons_self) _ fun _ => ?_
      exact ih.thenPure _

theorem inherit {source target : String} (hs : N.used source) (ht : N.used target)
    (floor : Option Int) (only : Option (List String)) :
    Settles N r (Variables.inherit source target floor only) := by
  unfold Variables.inherit
  split
  · exact pure _
  · refine Keeping.definitions.thenSettles fun ds hds => ?_
    subst hds
    refine (Keeping.loadValues hs).thenSettles fun vs hvs => ?_
    refine (copyInto ht floor _ fun v hv => hvs v.1 ?_).thenPure _
    exact List.mem_map_of_mem (List.mem_of_mem_filter hv)

theorem text (hc : N.used chat) (id : String) : Settles N r (Variables.text id chat) := by
  unfold Variables.text
  have hfind : Keeping N r (Variables.find? id) fun _ => True :=
    Keeping.definitions.bind fun ds _ => .pure trivial
  refine hfind.thenSettles fun d _ => ?_
  split
  · exact pure _
  split
  · exact (stack hc id).thenSettles fun s _ => pure _
  · exact (slot hc id).thenSettles fun s _ => pure _

theorem textByName (hc : N.used chat) (name : String) :
    Settles N r (Variables.textByName name chat) := by
  unfold Variables.textByName
  have hfind : Keeping N r (Variables.findByName? name) fun _ => True :=
    Keeping.definitions.bind fun ds _ => .pure trivial
  refine hfind.thenSettles fun d _ => ?_
  split
  · exact pure _
  · exact text hc _

end Settles

/-! ## All operations -/

/-- All that a storage holds in memory is short enough to be written. -/
def Storage.InLimit (s : Storage) : Prop :=
  ∀ r, s.store.root = some r → TagLedger.InLimit r s.store.values

/-- A variable of this name is defined in memory. -/
def Storage.Defines (s : Storage) (id : String) : Prop :=
  ∃ r, s.store.root = some r ∧ id ∈ Json.keys r.definitions

/-- What an operation is asked to store is sound, and is for variables that are defined. -/
def Operation.Fits (s : Storage) : Operation → Prop
  | .ofStore (.saveSuites suites) => (Json.keys suites).Nodup ∧ ∀ x ∈ suites, x.2.Sound
  | .ofStore (.saveDefinitions ds) =>
    (Json.keys ds).Nodup ∧ ∀ c ∈ s.store.values, ∀ id ∈ Json.keys c.2, id ∈ Json.keys ds
  | .ofStore (.saveSettings x) => x.Sound
  | .ofStore (.setValue id _ _) | .ofVariables (.addEntry id _ _ _)
  | .ofVariables (.put id _ _ _) => s.Defines id
  | .ofSuites (.create _ _ trigger _) => ∀ t, trigger = some t → t.Sound
  | .ofSuites (.addChat _ _ range _ _ _) => ∀ x, range = some x → x.Sound
  | _ => True

namespace Open

variable {s : Storage}

theorem defines (h : Open N r s) {id : String} (hid : s.Defines id) :
    id ∈ Json.keys r.definitions := by
  obtain ⟨r', hr', hid⟩ := hid
  rw [h.inMemory] at hr'
  obtain rfl := Option.some.inj hr'
  exact hid

/-- Writing changes nothing that the storage serves. -/
theorem write (h : Open N r s) (hl : s.InLimit) {x : Action Storage Unit}
    (hx : ∀ values, Synced N r values [] s → InLimit r values →
      ∃ t, exec x s = (.ok (), t) ∧ Synced N r values [] t) :
    Settled N (ended (.ofAction x) s).2 := by
  obtain ⟨values, hs, hd⟩ := h
  have hvalues : InLimit r values := hs.chats ▸ hl r hs.inMemory
  obtain ⟨t, ht, hsynced⟩ := hx values hs hvalues
  rw [ended_ofAction, ht]
  exact ⟨r, values, hsynced, hd⟩

theorem saveDefinitions (h : Open N r s) {ds : List (String × Definition)}
    (hkeys : (Json.keys ds).Nodup)
    (hdefined : ∀ c ∈ s.store.values, ∀ id ∈ Json.keys c.2, id ∈ Json.keys ds) :
    Settled N (ended (Storage.saveDefinitions ds) s).2 := by
  obtain ⟨values, hs, -⟩ := h
  have hcontents : Contents N { r with definitions := ds } values :=
    { hs.contents with sound := hs.contents.sound.withDefinitions hkeys }
  obtain ⟨t, ht, hsynced⟩ := hs.changeRoot (fun r => { r with definitions := ds }) hcontents
  unfold Storage.saveDefinitions
  rw [ht]
  exact ⟨_, values, hsynced, hs.chats ▸ hdefined⟩

end Open

/-- What ends as it should leaves a settled storage, also if it fails. -/
theorem Settles.ended {x : Activity Storage α} (hx : Settles N r x) {s : Storage}
    (h : Open N r s) : Settled N (ended x s).2 := Meets.iff_left.mp hx s h

section Performing

variable {s : Storage}

theorem Settles.silent {x : Activity Storage α} (hx : Settles N r x) : Settles N r x.silent :=
  Meets.silent hx

theorem Open.storeOperation {op : StoreOperation} (h : Open N r s) (hl : s.InLimit)
    (hc : ∀ c ∈ (Operation.ofStore op).chats, N.used c) (hfits : (Operation.ofStore op).Fits s) :
    Settled N (ended op.perform s).2 := by
  have hquiet {β : Type} {x : Activity Storage β} {A : β → Prop} (hx : Keeping N r x A) :
      Settled N (ended x.silent s).2 := hx.settles.silent.ended h
  cases op with
  | load => exact hquiet Keeping.load
  | suites => exact hquiet Keeping.suites
  | definitions => exact hquiet Keeping.definitions
  | settings => exact hquiet Keeping.settings
  | saveSuites suites =>
    have hx : Settles N r (Storage.saveSuites suites) :=
      .changing (fun h => h.withSuites hfits.1 hfits.2) (List.Subset.refl _)
    exact hx.ended h
  | saveDefinitions ds => exact h.saveDefinitions hfits.1 hfits.2
  | saveSettings x =>
    have hx : Settles N r (Storage.saveSettings x) :=
      .changing (fun h => h.withSettings hfits) (List.Subset.refl _)
    exact hx.ended h
  | save =>
    refine h.write hl fun values hs hl => ?_
    obtain ⟨t, ht, hsynced, -⟩ := hs.save hl
    exact ⟨t, ht, hsynced⟩
  | saveSoon =>
    obtain ⟨values, hs, hd⟩ := h
    exact ⟨r, values, hs.saveSoon, hd⟩
  | loadValues chat => exact hquiet (Keeping.loadValues (hc chat (List.mem_singleton_self _)))
  | getValue id chat => exact hquiet (Keeping.getValue (hc chat (List.mem_singleton_self _)) id)
  | setValue id chat v =>
    have hx := Keeping.setValue (hc chat (List.mem_singleton_self _)) (h.defines hfits) v
    exact hx.settles.ended h
  | saveValues chat =>
    refine h.write hl fun values hs hl => ?_
    obtain ⟨t, ht, hsynced, -⟩ := hs.saveValues hl chat
    exact ⟨t, ht, hsynced⟩
  | saveValuesSoon chat =>
    obtain ⟨values, hs, hd⟩ := h
    exact ⟨r, values, hs.saveValuesSoon chat, hd⟩
  | removeValues id =>
    obtain ⟨values, hs, hd⟩ := h
    obtain ⟨n, values', t, ht, hsynced, hkeys⟩ := hs.removeValues id
    have hrun : ended (Activity.ofAction (Storage.removeValues id)).silent s = (.ok (), t) :=
      ended_bind_ok ((ended_ofAction _ s).trans ht) _
    rw [StoreOperation.perform, hrun]
    refine ⟨r, values', hsynced, fun c hmem key hkey => ?_⟩
    obtain ⟨-, vs, hvs, hsub⟩ := hkeys c hmem
    exact hd _ hvs key (hsub hkey)
  | flush =>
    refine h.write hl fun values hs hl => ?_
    obtain ⟨t, ht, hsynced, -⟩ := hs.flush hl
    exact ⟨t, ht, hsynced⟩
  | close =>
    refine h.write hl fun values hs hl => ?_
    obtain ⟨t, ht, hsynced, -⟩ := hs.close hl
    exact ⟨t, ht, hsynced⟩

theorem Open.variableOperation {op : VariableOperation} (h : Open N r s)
    (hc : ∀ c ∈ (Operation.ofVariables op).chats, N.used c)
    (hfits : (Operation.ofVariables op).Fits s) : Settled N (ended op.perform s).2 := by
  have hquiet {β : Type} {x : Activity Storage β} (hx : Settles N r x) :
      Settled N (ended x.silent s).2 := hx.silent.ended h
  have hone {chat : String} (hchat : [chat] ⊆ (Operation.ofVariables op).chats) : N.used chat :=
    hc chat (hchat (List.mem_singleton_self chat))
  cases op with
  | list => exact hquiet (Keeping.definitions.settles.thenPure _)
  | find id => exact hquiet (Keeping.definitions.settles.thenPure _)
  | findByName name => exact hquiet (Keeping.definitions.settles.thenPure _)
  | findByTag tag => exact hquiet (Keeping.definitions.settles.thenPure _)
  | create name tag mode => exact hquiet (Settles.createVariable name tag mode)
  | rename id name => exact hquiet (Settles.rename id name)
  | delete withSlots id => exact hquiet (Settles.deleteVariable withSlots id)
  | stack id chat => exact hquiet (Settles.stack (hone (List.Subset.refl _)) id).settles
  | addEntry id chat content floors =>
    have hx := Settles.addEntry (hone (List.Subset.refl _)) (h.defines hfits) content floors
    exact hquiet hx.settles
  | updateEntry id chat entry content =>
    exact hquiet (Settles.changeEntry (hone (List.Subset.refl _)) id entry _)
  | toggleEntry id chat entry =>
    exact hquiet ((Settles.changeEntry (hone (List.Subset.refl _)) id entry _).thenPure _)
  | deleteEntry id chat entry =>
    exact hquiet (Settles.deleteEntry (hone (List.Subset.refl _)) id entry)
  | reorderEntries id chat order =>
    exact hquiet (Settles.reorderEntries (hone (List.Subset.refl _)) id order)
  | slot id chat => exact hquiet (Settles.slot (hone (List.Subset.refl _)) id).settles
  | put id chat content floors =>
    have hx := Settles.put (hone (List.Subset.refl _)) (h.defines hfits) content floors
    exact hquiet hx.settles
  | navigate id chat word => exact hquiet (Settles.navigate (hone (List.Subset.refl _)) id word)
  | restore id chat version =>
    exact hquiet (Settles.restore (hone (List.Subset.refl _)) id version)
  | shown id chat => exact hquiet (Settles.shown (hone (List.Subset.refl _)) id)
  | inherit source target floor only =>
    have hs : N.used source := hc source List.mem_cons_self
    have ht : N.used target := hc target (List.mem_cons_of_mem _ (List.mem_singleton_self _))
    exact hquiet (Settles.inherit hs ht floor only)
  | text id chat => exact hquiet (Settles.text (hone (List.Subset.refl _)) id)
  | textByName name chat => exact hquiet (Settles.textByName (hone (List.Subset.refl _)) name)
  | warm chat =>
    have hx : Keeping N r (Variables.warm chat) fun _ => True :=
      Keeping.load.bind fun _ _ =>
        (Keeping.loadValues (hone (List.Subset.refl _))).bind fun _ _ => .pure trivial
    exact hx.settles.ended h

theorem Open.suiteOperation {op : SuiteOperation} (h : Open N r s)
    (hfits : (Operation.ofSuites op).Fits s) : Settled N (ended op.perform s).2 := by
  have hop : op.Sound := by
    cases op with
    | create name enabled trigger useSnapshot => exact hfits
    | addChat id name range excludeUser scripts place => exact hfits
    | _ => trivial
  exact (Settles.ofLeads (Open.arranges.perform hop)).ended h

/-- Every operation leaves a settled storage. -/
theorem Open.perform {op : Operation} (h : Open N r s) (hl : s.InLimit)
    (hc : ∀ c ∈ op.chats, N.used c) (hfits : op.Fits s) : Settled N (ended op.perform s).2 := by
  cases op with
  | ofStore op => exact h.storeOperation hl hc hfits
  | ofVariables op => exact h.variableOperation hc hfits
  | ofSuites op => exact h.suiteOperation hfits

end Performing

end TagLedger
