import TagLedger.Proofs.Defining

/-!
# The document of the root

As long as nothing is refused and no chat that is used has the document of the root for its own, the
document that was written tells the root in memory whenever the root is not to be written. So a new
store finds the root that the last one left when it was closed.

    Rooted N own r s → what changes values leaves Rooted N own r                    (Rooted.pieces)
    Rooted N own r s → op.perform leaves Rooted N own r', op.Makes r r'             (Rooted.perform)
    Rooted N True r s, nothing to be written → a new store loads r                  (Rooted.reload)
-/

namespace TagLedger

variable {α : Type} {N : Naming} {own : Prop} {r r' : Root} {s t : Storage} {chat : String}

/-! ## The invariant -/

/-- The storage serves the sound root `r`. If the document of the root is the storage's own, it
tells `r` when nothing is to be written. -/
structure Rooted (N : Naming) (own : Prop) (r : Root) (s : Storage) : Prop where
  rootName : s.store.rootName = N.rootName
  valuesStart : s.store.valuesStart = N.valuesStart
  accepts : ∀ a, s.shelf.refuses a = false
  inMemory : s.store.root = some r
  sound : r.Sound
  unmarked : s.store.rootDegraded = false
  used : ∀ c ∈ Json.keys s.store.values, N.used c
  written : own → s.store.rootDirty = false →
    r.document.writable = true ∧ s.shelf.find? N.rootName = some r.text

namespace Rooted

theorem unlocked : Unlocked (Rooted N own r) := fun _ _ _ h => { h with }

/-- Values that are put into the memory belong to a chat that is used. -/
theorem setValues (h : Rooted N own r s) (hc : N.used chat) (vs : ChatValues) :
    Rooted N own r { s with store := s.store.setValues chat vs } :=
  { h with used := fun c hmem => (Json.mem_keys_insert.mp hmem).elim (fun e => e ▸ hc) (h.used c) }

/-- What operations on values may do: everything for the chats that are used. -/
def valuesScope (N : Naming) : Scope := ⟨N.used, N.used, fun _ chat => N.used chat, False⟩

/-! ### Writing -/

theorem attemptRoot (h : Rooted N own r s) (hw : r.document.writable = true) :
    Rooted N own r (s.attemptRoot r).2 := by
  unfold Storage.attemptRoot
  dsimp only
  rw [if_neg (by rw [h.accepts]; decide)]
  refine { h with written := fun _ _ => ⟨hw, ?_⟩ }
  dsimp only
  rw [find?_written, if_pos h.rootName]

theorem attemptChat (h : Rooted N own r s) {vs : ChatValues}
    (hcached : s.store.cached? chat = some vs) : Rooted N own r (s.attemptChat chat vs).2 := by
  have hname : Store.valuesName s.store.valuesStart chat ≠ N.rootName := by
    rw [h.valuesStart]
    exact N.apart chat (h.used chat (Json.mem_keys_of_find? hcached))
  unfold Storage.attemptChat
  dsimp only
  split
  · rw [if_neg (by rw [h.accepts]; decide)]
    refine { h with written := fun ho hd => ?_ }
    dsimp only
    rw [find?_dropped, if_neg hname]
    exact h.written ho hd
  · rw [if_neg (by rw [h.accepts]; decide)]
    refine { h with written := fun ho hd => ?_ }
    dsimp only
    rw [find?_written, if_neg hname]
    exact h.written ho hd

/-- A root that cannot be written stays to be written. -/
theorem writing : KeepsWriting (Always (Rooted N own r)) where
  timers _ _ _ _ _ h := { h with }
  dirtyRoot _ _ _ _ := trivial
  dirtyChats _ _ _ _ _ := trivial
  save _ _ s h := KeepsFlushing.saveOf h { h with } fun r' hr' _ hw => by
    rw [h.inMemory] at hr'
    obtain rfl := Option.some.inj hr'
    exact h.attemptRoot hw
  saveValues chat _ _ s h :=
    KeepsFlushing.saveValuesOf h (fun _ hc _ _ => h.attemptChat hc) fun _ _ _ _ _ => { h with }

/-! ### Values -/

theorem load : Keeps (Always (Rooted N own r)) Storage.load :=
  .loadInMemory fun _ _ h => Option.isSome_iff_exists.mpr ⟨r, h.inMemory⟩

theorem looked (h : Rooted N own r s) (hc : N.used chat) (root : Root) (name : String) :
    Rooted N own r (s.looked root chat name).2 := by
  obtain ⟨values, degraded, dirty, timer, hframe⟩ := Storage.looked_frame s root chat name
  have hcached := Storage.cached?_looked s root chat name
  rw [hframe] at hcached ⊢
  refine { h with used := fun c hmem => ?_ }
  by_cases hne : chat = c
  · exact hne ▸ hc
  · have hsame := (hcached c).trans (if_neg hne)
    refine h.used c (Json.find?_isSome.mp ?_)
    rw [← Json.find?_isSome] at hmem
    exact (congrArg Option.isSome hsame).symm.trans hmem

theorem loadValues (hc : N.used chat) :
    Keeps (Always (Rooted N own r)) (Storage.loadValues chat) :=
  Gives.loadValues (fun _ => unlocked) (fun _ _ _ _ _ => trivial) load (fun _ _ _ _ _ => trivial)
    fun _ _ _ _ _ _ h => ⟨h.looked hc _ _, trivial⟩

theorem pieces : Pieces (valuesScope N) (Always (Rooted N own r)) where
  newId _ _ _ _ h := { h with }
  load := load
  changeRoot h := h.elim
  save h := h.elim
  saveSoon h := h.elim
  removeValues h := h.elim
  loadValues hc := loadValues hc
  amend hc _ := .amend fun _ _ _ h _ => h.setValues hc _
  setValue hc _ _ := .setValue (loadValues hc) (fun _ _ _ h _ => h.setValues hc _) fun _ _ h =>
    { h with }
  saveValues _ := writing.saveValues _ trivial
  saveValuesSoon _ _ _ h := { h with }
  flush := writing.flush
  close := writing.close

theorem removeValues (id : String) :
    KeepsNow (Always (Rooted N own r)) (Storage.removeValues id) :=
  .removeValues (fun _ _ _ _ h => { h with })
    (fun h c hc _ _ ht => ht.setValues (h.used c.1 (List.mem_map_of_mem hc)) _)
    fun _ _ _ h => { h with }

/-! ### Changes of the root -/

/-- From now on the document is the storage's own. -/
theorem changeRoot (h : Rooted N own r s) (f : Root → Root) (hf : (f r).Sound) (own' : Prop) :
    ∃ t, ended (Storage.changeRoot f) s = (.ok (), t) ∧ Rooted N own' (f r) t :=
  ⟨_, Storage.ended_changeRoot h.inMemory f,
    { h with inMemory := rfl, sound := hf, written := fun _ hd => nomatch hd }⟩

theorem arranges : Arranges (Rooted N own) where
  sound h := h.sound
  inMemory h := h.inMemory
  random _ h := { h with }
  change f h hf := h.changeRoot f (hf.sound h.sound) _

end Rooted

/-! ## Operations -/

/-- One change of the root by an operation that is not handed the suites or the settings. -/
inductive RootStep (r : Root) : Root → Prop where
  | arranged {r' : Root} (h : Arranged r r') : RootStep r r'
  | definitions {ds : List (String × Definition)} (hkeys : (Json.keys ds).Nodup) :
      RootStep r { r with definitions := ds }

/-- The operation is not handed a part of the root. -/
def StoreOperation.Bare : StoreOperation → Prop
  | .saveSuites _ | .saveSettings _ | .saveDefinitions _ => False
  | _ => True

/-- The storage serves a root to which `r` has come. -/
def Rooted.Changed (N : Naming) (own : Prop) (r : Root) (s : Storage) : Prop :=
  ∃ r', Relation.ReflTransGen RootStep r r' ∧ Rooted N own r' s

/-- Something that changes the root step by step. -/
abbrev Changes (N : Naming) (own : Prop) (r : Root) (x : Activity Storage α) : Prop :=
  Meets (Rooted.Changed N own r) (Rooted N own r) x fun _ => Rooted.Changed N own r

namespace Changes

variable {β : Type}

theorem ofLeads {x : Activity Storage α} (h : Leads (Rooted N own) r x) : Changes N own r x :=
  Meets.iff_left.mpr fun s hs => by
    obtain ⟨r', hr', hend⟩ := Meets.iff_left.mp h s hs
    exact ⟨r', hr'.lift id fun _ _ => .arranged, hend⟩

theorem ofKeeps {x : Activity Storage α} (h : Keeps (Always (Rooted N own r)) x) :
    Changes N own r x :=
  Meets.iff_left.mpr fun _ hs => ⟨r, .refl, (h.finish Rooted.unlocked hs).1⟩

theorem pure (a : α) : Changes N own r (pure a : Activity Storage α) := fun _ hs => ⟨r, .refl, hs⟩

/-- What comes after something that leaves the root in place. -/
theorem after {x : Activity Storage β} {f : β → Activity Storage α}
    (hx : Keeps (Always (Rooted N own r)) x) (hf : ∀ a, Changes N own r (f a)) :
    Changes N own r (x >>= f) := Meets.iff_left.mpr fun s hs => by
  have hkept := (hx.finish Rooted.unlocked hs).1
  rw [ended_bind]
  rcases hrun : ended x s with ⟨e | a, t⟩
  · rw [hrun] at hkept
    exact ⟨r, .refl, hkept⟩
  · rw [hrun] at hkept
    exact Meets.iff_left.mp (hf a) t hkept

/-- The definitions are known when they were asked for. -/
theorem knowing {f : List (String × Definition) → Activity Storage α}
    (hf : (Json.keys r.definitions).Nodup → Changes N own r (f r.definitions)) :
    Changes N own r (Storage.definitions >>= f) := fun s hs => by
  rw [ended_bind_ok (Storage.ended_definitions hs.inMemory)]
  exact hf hs.sound.definitionKeys s hs

theorem saveDefinitions {ds : List (String × Definition)} (hkeys : (Json.keys ds).Nodup)
    {x : Unit → Activity Storage α} (hx : Changes N own { r with definitions := ds } (x ())) :
    Changes N own r (Storage.saveDefinitions ds >>= x) := Meets.iff_left.mpr fun s hs => by
  obtain ⟨t, ht, hrooted⟩ :=
    hs.changeRoot (fun r => { r with definitions := ds }) (hs.sound.withDefinitions hkeys) own
  obtain ⟨r', hr', hend⟩ := Meets.iff_left.mp hx t hrooted
  unfold Storage.saveDefinitions
  rw [ended_bind_ok ht]
  exact ⟨r', .head (.definitions hkeys) hr', hend⟩

theorem create (name tag : Option String) (mode : Option Mode) :
    Changes N own r (Variables.create name tag mode) := by
  unfold Variables.create
  split
  · exact pure _
  · refine knowing fun hkeys => ?_
    split
    · exact pure _
    split
    · exact pure _
    split
    · exact pure _
    · refine after (Keeps.ofAction (Rooted.pieces.newId "var" 5)) fun id => ?_
      refine after (Keeps.ofAction .now) fun now => ?_
      exact saveDefinitions (Json.nodup_keys_insert hkeys _ _) (pure _)

theorem rename (id : String) (name : Option String) :
    Changes N own r (Variables.rename id name) := by
  unfold Variables.rename
  refine knowing fun hkeys => ?_
  split
  · exact pure _
  split
  · exact pure _
  · refine after (Keeps.ofAction .now) fun now => ?_
    exact saveDefinitions (Json.nodup_keys_insert hkeys _ _) (pure _)

theorem delete (withSlots : Bool) (id : String) :
    Changes N own r (Variables.delete withSlots id) := by
  unfold Variables.delete
  refine knowing fun hkeys => ?_
  split
  · exact pure _
  refine saveDefinitions (Json.nodup_keys_filter hkeys _) ?_
  refine after (Keeps.ofAction (Rooted.removeValues id)) fun _ => ?_
  split
  · exact (ofLeads (Rooted.arranges.removeSlots id)).bind fun _ => fun _ hs => hs
  · exact pure _

theorem variableOperation {op : VariableOperation}
    (hc : ∀ c ∈ (Operation.ofVariables op).chats, N.used c) : Changes N own r op.perform := by
  have hsilent {γ : Type} {x : Activity Storage γ} (hx : Changes N own r x) :
      Changes N own r x.silent := Meets.silent hx
  have hvalues (hop : (Operation.ofVariables op).Within (Rooted.valuesScope N)) :
      Changes N own r op.perform := ofKeeps (Rooted.pieces.variableOperation op hop)
  have hwithin := Operation.within_chats hc
  cases op with
  | create name tag mode => exact hsilent (create name tag mode)
  | rename id name => exact hsilent (rename id name)
  | delete withSlots id => exact hsilent (delete withSlots id)
  | _ => exact hvalues hwithin

theorem storeOperation {op : StoreOperation} (hop : op.Bare)
    (hc : ∀ c ∈ (Operation.ofStore op).chats, N.used c) : Changes N own r op.perform := by
  have hvalues (hop : (Operation.ofStore op).Within (Rooted.valuesScope N)) :
      Changes N own r op.perform := ofKeeps (Rooted.pieces.storeOperation op hop)
  have hwithin := Operation.within_chats hc
  cases op with
  | saveSuites suites => exact hop.elim
  | saveSettings x => exact hop.elim
  | saveDefinitions ds => exact hop.elim
  | save => exact ofKeeps (.ofAction (Rooted.writing.save trivial))
  | saveSoon => exact ofKeeps (.ofAction (x := Storage.saveSoon) fun _ _ h =>
      { h with written := fun _ hd => nomatch hd })
  | removeValues id => exact ofKeeps (Keeps.ofAction (Rooted.removeValues id)).silent
  | _ => exact hvalues hwithin

end Changes

/-- What an operation is asked to store is sound. -/
def Operation.Sound : Operation → Prop
  | .ofStore (.saveSuites suites) => (Json.keys suites).Nodup ∧ ∀ x ∈ suites, x.2.Sound
  | .ofStore (.saveDefinitions ds) => (Json.keys ds).Nodup
  | .ofStore (.saveSettings x) => x.Sound
  | .ofSuites op => op.Sound
  | _ => True

/-- What an operation may make of the root. -/
def Operation.Makes (r r' : Root) : Operation → Prop
  | .ofStore (.saveSuites suites) => r' = { r with suites := suites }
  | .ofStore (.saveSettings x) => r' = { r with settings := x }
  | _ => Relation.ReflTransGen RootStep r r'

namespace Rooted

theorem perform {op : Operation} (h : Rooted N own r s) (hc : ∀ c ∈ op.chats, N.used c)
    (hop : op.Sound) : ∃ r', op.Makes r r' ∧ Rooted N own r' (ended op.perform s).2 := by
  have hchange (f : Root → Root) (hf : (f r).Sound) :
      Rooted N own (f r) (ended (Storage.changeRoot f) s).2 := by
    obtain ⟨t, ht, hrooted⟩ := h.changeRoot f hf own
    rw [ht]
    exact hrooted
  have hsteps (hx : Changes N own r op.perform) : Changed N own r (ended op.perform s).2 :=
    Meets.iff_left.mp hx s h
  cases op with
  | ofStore op =>
    have hbare (hop : op.Bare) : Changed N own r (ended (Operation.ofStore op).perform s).2 :=
      hsteps (Changes.storeOperation hop hc)
    cases op with
    | saveSuites suites =>
      exact ⟨_, rfl, hchange (fun r => { r with suites := suites })
        (h.sound.withSuites hop.1 hop.2)⟩
    | saveSettings x =>
      exact ⟨_, rfl, hchange (fun r => { r with settings := x }) (h.sound.withSettings hop)⟩
    | saveDefinitions ds =>
      exact ⟨_, .single (.definitions hop), hchange (fun r => { r with definitions := ds })
        (h.sound.withDefinitions hop)⟩
    | _ => exact hbare trivial
  | ofVariables op => exact hsteps (Changes.variableOperation hc)
  | ofSuites op => exact hsteps (.ofLeads (arranges.perform hop))

/-! ## Opening a store anew -/

/-- The root that was written is loaded after everything was forgotten. -/
theorem reload (h : Rooted N True r s) (hclean : s.store.rootDirty = false) :
    ∃ t, ended Storage.load { s with store := s.store.forget } = (.ok r, t) ∧
      Rooted N True r t := by
  obtain ⟨hw, htext⟩ := h.written trivial hclean
  let u : Storage := { s with store := s.store.forget }
  have hanswer : (u.shelf.read u.store.rootName).1 = .ok (some r.text) := by
    change (s.shelf.read s.store.rootName).1 = _
    unfold Shelf.read
    rw [h.accepts, h.rootName, htext]
    rfl
  obtain ⟨held, granted, hload⟩ := Storage.ended_load_current (s := u) rfl hanswer
    (ofText_text h.sound hw)
  refine ⟨_, hload, ?_⟩
  exact
    { rootName := h.rootName
      valuesStart := h.valuesStart
      accepts := h.accepts
      inMemory := rfl
      sound := h.sound
      unmarked := rfl
      used := nofun
      written := fun _ _ => ⟨hw, htext⟩ }

end Rooted

/-- Where a store is begun: the shelf refuses nothing, and a root that was read is sound. -/
structure Placed (N : Naming) (s : Storage) : Prop where
  rootName : s.store.rootName = N.rootName
  valuesStart : s.store.valuesStart = N.valuesStart
  accepts : ∀ a, s.shelf.refuses a = false
  sound : ∀ r, s.store.root = some r → { r with version := Root.currentVersion }.Sound

namespace Placed

theorem writing : KeepsWriting (Always (Placed N)) := by
  refine .ofAttempts (fun _ _ _ _ _ _ _ h => { h with }) (fun _ s r h _ _ _ => ?_)
    fun _ s c vs h _ _ _ => ?_
  · obtain ⟨_, shelf, hrun, hrefuses, -⟩ := s.attemptRoot_cases r
    rw [hrun]
    exact { h with accepts := fun a => (congrFun hrefuses a).trans (h.accepts a) }
  · obtain ⟨_, shelf, hrun, hrefuses, -⟩ := s.attemptChat_cases c vs
    rw [hrun]
    exact { h with accepts := fun a => (congrFun hrefuses a).trans (h.accepts a) }

theorem takeRoot (h : Placed N s) (answer : Except StorageFault (Option String)) :
    Placed N (exec (Storage.takeRoot answer) s).2 := by
  have hleft := @Storage.takeRoot_leaves (Placed N) s answer writing
    (fun d _ _ hd => { h with sound := fun _ hr => Option.some.inj hr ▸ hd.sound })
    (fun _ _ _ _ _ _ => .adopt fun _ _ _ _ ht => { ht with }) fun _ ht => { ht with }
  rcases hleft with hsame | hplaced
  · rw [hsame]
    exact h
  · exact hplaced

theorem load : Keeps (Always (Placed N)) Storage.load :=
  .load (fun _ _ _ _ h => { h with }) fun _ s₀ _ s _ h =>
    have hread : Placed N { s with shelf := (s.shelf.read s₀.store.rootName).2 } := { h with }
    hread.takeRoot _

end Placed

/-- A store that was opened on whatever documents serves the root that it found, if this has the
current version. -/
theorem Rooted.ofLoad (hnew : New N s) (hload : ended Storage.load s = (.ok r, t))
    (hversion : r.version = Root.currentVersion) (hunmarked : t.store.rootDegraded = false)
    (hused : ∀ c ∈ Json.keys t.store.values, N.used c) : Rooted N False r t := by
  have hplaced : Placed N s :=
    { rootName := hnew.rootName
      valuesStart := hnew.valuesStart
      accepts := hnew.accepts
      sound := fun r hr => nomatch hnew.root.symm.trans hr }
  have hend := (Placed.load.finish (fun _ _ _ h => { h with }) hplaced).1
  rw [hload] at hend
  have hroot := Storage.root_of_load hload
  have hsound := hend.sound r hroot
  rw [← hversion] at hsound
  exact
    { rootName := hend.rootName
      valuesStart := hend.valuesStart
      accepts := hend.accepts
      inMemory := hroot
      sound := hsound
      unmarked := hunmarked
      used := hused
      written := fun h => h.elim }

end TagLedger
