import TagLedger.Proofs.Counting

/-!
# What becomes of one chat

A storage has of a chat what is in memory, a document, and a mark if that is to be written. Whatever
is asked of the storage for values, this goes through few kinds of steps: the document is read, a
value is set, and what is in memory is written.

    only these values of the chat may be set  →  its file goes through steps         (Files.perform)
-/

namespace TagLedger

variable {N : Naming} {s t : Storage} {r : Root} {chat other id : String} {vs : ChatValues}

/-! ## Files -/

/-- A chat as a storage has it: the values in memory, if they can be used, the text of the document,
and whether that is to be written. -/
structure ChatFile where
  served : Option ChatValues
  text : Option String
  waits : Prop

def Storage.file (N : Naming) (chat : String) (s : Storage) : ChatFile where
  served := s.store.usable? chat
  text := s.shelf.find? (Store.valuesName N.valuesStart chat)
  waits := chat ∈ s.store.dirty

/-- Storing values of a chat leaves the others as they are. -/
theorem Storage.file_stored (hu : s.store.usable? other = some vs) (new : ChatValues) :
    (s.stored other new).file N chat =
      if other = chat then ⟨some new, (s.file N chat).text, True⟩ else s.file N chat := by
  have hdirty : chat ∈ (s.stored other new).store.dirty ↔ chat ∈ s.store.dirty ∨ chat = other :=
    Store.mem_markDirty (s := s.store.setValues other _) chat
  split
  · next he =>
    subst he
    have hserved : (s.stored other new).store.usable? other = some new :=
      Store.usable?_soon (Store.not_degraded_of_usable hu) _ s.clock.elapsed
    unfold file
    rw [hserved, eq_true (hdirty.mpr (Or.inr rfl))]
    rfl
  · next he =>
    have hothers : (s.stored other new).store.usable? chat = s.store.usable? chat :=
      Store.usable?_setValues_other (s := s.store) he new
    unfold file
    rw [hothers, propext (hdirty.trans (or_iff_left (Ne.symm he)))]
    rfl

theorem Storage.file_soon (other : String) (time : Nat) :
    { s with store := s.store.soon other time }.file N chat =
      if other = chat then { s.file N chat with waits := True } else s.file N chat := by
  have hdirty : chat ∈ (s.store.soon other time).dirty ↔ chat ∈ s.store.dirty ∨ chat = other :=
    Store.mem_markDirty chat
  split
  · next he =>
    unfold file
    dsimp only
    rw [eq_true (hdirty.mpr (Or.inr he.symm))]
    rfl
  · next he =>
    unfold file
    dsimp only
    rw [propext (hdirty.trans (or_iff_left (Ne.symm he)))]
    rfl

/-- What can become of a chat if values for which `gone` holds are dropped when it is read, and only
those for which `sets` holds are set. -/
inductive ChatFile.Step (chat : String) (gone : String → Bool) (sets : String → Prop)
    (f : ChatFile) : ChatFile → Prop where
  | read (now : Int) {raw : List (String × Json)} {waits : Prop} (hunread : f.served = none)
      (hraw : Storage.rawValues? f.text = some raw) (hwaits : f.waits → waits) :
      Step chat gone sets f
        ⟨some ((Storage.readValues ⟨now, false⟩ raw).filter fun v => !gone v.1), f.text, waits⟩
  | set {vs : ChatValues} {id : String} (v : Value) (hserved : f.served = some vs) (hid : sets id) :
      Step chat gone sets f ⟨some (Json.insert vs id v), f.text, True⟩
  | await : Step chat gone sets f { f with waits := True }
  | write {vs : ChatValues} (hserved : f.served = some vs)
      (hw : vs = [] ∨ (ChatValues.document chat vs).writable = true) :
      Step chat gone sets f
        ⟨f.served, if vs = [] then none else some (ChatValues.text chat vs), False⟩
  | giveUp {vs : ChatValues} (hserved : f.served = some vs)
      (hw : (ChatValues.document chat vs).writable = false) :
      Step chat gone sets f { f with waits := False }

/-- What can become of a chat, step by step. -/
abbrev ChatFile.Steps (chat : String) (gone : String → Bool) (sets : String → Prop) :
    ChatFile → ChatFile → Prop := Relation.ReflTransGen (ChatFile.Step chat gone sets)

variable {gone : String → Bool} {sets : String → Prop} {f : ChatFile}

/-- Reading any chat reads this one or leaves it as it is. -/
theorem Storage.file_looked (hu : s.store.usable? other = none)
    (hstart : s.store.valuesStart = N.valuesStart)
    (hgone : ∀ id, s.store.isGone r id = gone id) :
    (s.file N chat).Steps chat gone sets
      ((s.looked r other (Store.valuesName s.store.valuesStart other)).2.file N chat) := by
  let name := Store.valuesName s.store.valuesStart other
  have hserved := usable?_looked s r other name
  have hdirty : chat ∈ (s.looked r other name).2.store.dirty ↔ _ := mem_dirty_looked
  have htext : (s.looked r other name).2.shelf.find? (Store.valuesName N.valuesStart chat) =
      s.shelf.find? (Store.valuesName N.valuesStart chat) := by
    obtain ⟨values, degraded, dirty, timer, hframe⟩ := looked_frame s r other name
    rw [hframe]
    rfl
  unfold file
  rw [htext]
  by_cases he : other = chat
  · subst he
    rw [hserved, propext hdirty]
    cases hraw : rawOf? (s.shelf.read name).1 with
    | none =>
      have hsame : (other ∈ s.store.dirty ∨ other = other ∧
          ∃ raw, (none : Option (List (String × Json))) = some raw ∧ s.drops r raw = true) =
            (other ∈ s.store.dirty) := propext (or_iff_left fun ⟨_, _, hnone, _⟩ => nomatch hnone)
      rw [hsame, Option.map_none, ← hu]
    | some raw =>
      have hvalues := rawValues?_of_rawOf? hraw
      have hkept : s.kept r raw =
          (readValues ⟨s.clock.now, false⟩ raw).filter fun v => !gone v.1 := by
        unfold kept
        simp only [hgone]
      rw [Option.map_some, hkept]
      refine .single (.read s.clock.now hu ?_ Or.inl)
      rwa [← hstart]
  · have hsame : (chat ∈ (s.looked r other name).2.store.dirty) = (chat ∈ s.store.dirty) :=
      propext (hdirty.trans (or_iff_left fun hmem => he hmem.1.symm))
    rw [hsame, usable?_looked_other he]

/-! ## Storages -/

/-- A storage serves values under the root `r`, and the file of the chat came of `f`. -/
structure Files (N : Naming) (r : Root) (chat : String) (gone : String → Bool)
    (sets : String → Prop) (f : ChatFile) (s : Storage) : Prop where
  covers : N.Covers s
  blank : s.Blank
  root : s.store.root = some r
  drops : ∀ id, s.store.isGone r id = gone id
  steps : f.Steps chat gone sets (s.file N chat)

namespace Files

theorem refl (hcovers : N.Covers s) (hblank : s.Blank) (hroot : s.store.root = some r)
    (chat : String) (sets : String → Prop) :
    Files N r chat (s.store.isGone r) sets (s.file N chat) s :=
  ⟨hcovers, hblank, hroot, fun _ => rfl, .refl⟩

theorem unlocked : Unlocked (Files N r chat gone sets f) := fun _ _ _ h =>
  { h with covers := { h.covers with }, blank := ⟨h.blank.unloaded, h.blank.degraded⟩ }

/-- Documents are written, and what waits for it changes. -/
theorem wrote (h : Files N r chat gone sets f s) (rootDirty : Bool) (rootTimer : Option Nat)
    (dirty : List String) (shelf : Shelf)
    (hsteps : (s.file N chat).Steps chat gone sets ⟨s.store.usable? chat,
      shelf.find? (Store.valuesName N.valuesStart chat), chat ∈ dirty⟩) :
    Files N r chat gone sets f { s with
      store := { s.store with rootDirty := rootDirty, rootTimer := rootTimer, dirty := dirty }
      shelf := shelf } where
  covers := { h.covers with }
  blank := ⟨h.blank.unloaded, h.blank.degraded⟩
  root := h.root
  drops := h.drops
  steps := h.steps.trans hsteps

theorem writing (hchat : N.used chat) : KeepsWriting (Always (Files N r chat gone sets f)) where
  timers _ _ _ _ _ h :=
    { h with covers := { h.covers with }, blank := ⟨h.blank.unloaded, h.blank.degraded⟩ }
  dirtyRoot _ _ _ _ := trivial
  dirtyChats _ _ _ _ _ := trivial
  save _ _ s h := by
    refine KeepsFlushing.saveOf h (h.wrote _ _ s.store.dirty s.shelf .refl) fun r _ _ _ => ?_
    obtain ⟨rootDirty, shelf, hrun, hsame, -⟩ := s.attemptRoot_texts r
    rw [h.covers.rootName] at hsame
    rw [hrun]
    refine h.wrote _ _ s.store.dirty shelf ?_
    rw [hsame _ (Ne.symm (N.apart chat hchat))]
    exact .refl
  saveValues other _ _ s h := by
    have husable {vs : ChatValues} (hc : s.store.cached? other = some vs)
        (hd : s.store.isDegraded other = false) : s.store.usable? other = some vs :=
      (Store.usable?_of_not_degraded hd).trans hc
    refine KeepsFlushing.saveValuesOf h (fun vs hc hd hw => ?_) fun vs hc hd _ hw => ?_
    · have hname := h.covers.used other vs hc
      obtain ⟨dirty, shelf, hrun, hothers, hsame, htext⟩ := s.attemptChat_texts other vs
      rw [h.covers.valuesStart] at hsame htext
      rw [hrun]
      refine h.wrote s.store.rootDirty s.store.rootTimer dirty shelf ?_
      by_cases he : other = chat
      · subst he
        rcases htext with ⟨hdirty, htext⟩ | ⟨hclean, htext⟩
        · -- the shelf refused it
          rw [htext, eq_true hdirty]
          exact .single .await
        · rw [htext, eq_false hclean]
          exact .single (.write (husable hc hd) hw)
      · rw [hsame _ fun e => he (N.distinct _ _ hname hchat e),
          propext (hothers chat (Ne.symm he))]
        exact .refl
    · refine h.wrote s.store.rootDirty s.store.rootTimer _ s.shelf ?_
      by_cases he : other = chat
      · subst he
        have hclean : other ∉ s.store.dirty.filter (· != other) := fun hmem =>
          bne_iff_ne.mp (List.mem_filter.mp hmem).2 rfl
        rw [eq_false hclean]
        exact .single (.giveUp (husable hc hd) hw)
      · have hsame : (chat ∈ s.store.dirty.filter (· != other)) = (chat ∈ s.store.dirty) :=
          propext ⟨fun hmem => (List.mem_filter.mp hmem).1,
            fun hmem => List.mem_filter.mpr ⟨hmem, bne_iff_ne.mpr (Ne.symm he)⟩⟩
        rw [hsame]
        exact .refl

/-! ### Reading -/

theorem looked (h : Files N r chat gone sets f s) (hc : N.used other)
    (hu : s.store.usable? other = none) : Files N r chat gone sets f
      (s.looked r other (Store.valuesName s.store.valuesStart other)).2 := by
  obtain ⟨values, degraded, dirty, timer, hframe⟩ :=
    Storage.looked_frame s r other (Store.valuesName s.store.valuesStart other)
  exact
    { covers := h.covers.looked hc r _
      blank := h.blank.looked h.root hu _
      root := by
        rw [hframe]
        exact h.root
      drops := fun id => by
        rw [hframe]
        exact h.drops id
      steps := h.steps.trans (Storage.file_looked hu h.covers.valuesStart h.drops) }

theorem stored (h : Files N r chat gone sets f s) (hu : s.store.usable? other = some vs)
    (hid : other = chat → sets id) (v : Value) :
    Files N r chat gone sets f (s.stored other (Json.insert vs id v)) where
  covers := h.covers.stored hu _
  blank := h.blank.stored hu _
  root := h.root
  drops := h.drops
  steps := h.steps.trans <| by
    rw [Storage.file_stored hu]
    split
    · next he =>
      subst he
      exact .single (.set v hu (hid rfl))
    · exact .refl

theorem soon (h : Files N r chat gone sets f s) (other : String) :
    Files N r chat gone sets f
      { s with store := s.store.soon other s.clock.elapsed } where
  covers := { h.covers with }
  blank := ⟨h.blank.unloaded, h.blank.degraded⟩
  root := h.root
  drops := h.drops
  steps := h.steps.trans <| by
    rw [Storage.file_soon]
    split
    · exact .single .await
    · exact .refl

theorem around (h : Files N r chat gone sets f s) (clock : Clock) (refuses : Access → Bool) :
    Files N r chat gone sets f
      { s with clock := clock, shelf := { s.shelf with refuses := refuses } } :=
  { h with covers := { h.covers with }, blank := ⟨h.blank.unloaded, h.blank.degraded⟩ }

/-! ### Operations -/

theorem load : Preserves (Files N r chat gone sets f) Storage.load :=
  .ok fun s h => ⟨r, s, Storage.ended_load_some h.root, h⟩

theorem loadValues (hc : N.used other) :
    Meets (Files N r chat gone sets f) (Files N r chat gone sets f) (Storage.loadValues other)
      fun vs s => Files N r chat gone sets f s ∧ s.Ready other vs := .ok fun s h => by
  obtain ⟨held, granted, hrun⟩ := Storage.ended_loadValues_eq h.root other
  have hloaded : Files N r chat gone sets f (s.loaded r other).2 := by
    cases hu : s.store.usable? other with
    | some vs =>
      rw [Storage.loaded_usable hu]
      exact h
    | none =>
      rw [Storage.loaded_unusable hu]
      exact h.looked hc hu
  exact ⟨_, _, hrun, unlocked _ held granted hloaded, hloaded.blank.ready⟩

theorem loaded (hc : N.used other) :
    Preserves (Files N r chat gone sets f) (Storage.loadValues other) :=
  (loadValues hc).mono (fun _ h => h) fun _ _ h => h.1

end Files

/-- What is asked for values, if only some of those of one chat may be set. -/
def Scope.setting (N : Naming) (chat : String) (sets : String → Prop) : Scope :=
  ⟨N.used, N.used, fun id c => N.used c ∧ (c = chat → sets id), False⟩

/-- An operation sets only these values of the chat, and changes nothing in the root. A branch
inherits only what is asked for. -/
def Operation.Setting (N : Naming) (chat : String) (sets : String → Prop) : Operation → Prop
  | .ofVariables (.inherit source target _ only) => N.used source ∧ N.used target ∧
    ∀ id, (∀ ids, only = some ids → id ∈ ids) → target = chat → sets id
  | op => op.Within (.setting N chat sets)

namespace Files

theorem pieces : VariablePieces (.setting N chat sets) fun _ x =>
    Preserves (Files N r chat gone sets f) x where
  toCompositional := Preserves.compositional
  load := load
  loadValues := loaded
  editValue hc hsets v :=
    Meets.editValue (loadValues hc) (fun _ h => h.blank) fun _ _ h hu => h.stored hu hsets.2 v
  setValue hc hsets v := Meets.setValue (loadValues hc) fun _ _ h hu => h.stored hu hsets.2 v
  create h := h.elim
  rename h := h.elim
  delete h := h.elim

/-- Every operation in scope takes the chat some steps further. -/
theorem perform (hchat : N.used chat) {op : Operation} (hop : op.Setting N chat sets) :
    Preserves (Files N r chat gone sets f) op.perform := by
  have hpieces : VariablePieces (.setting N chat sets) fun _ x =>
    Preserves (Files N r chat gone sets f) x := pieces
  have hvariables (op : VariableOperation) (hop : (Operation.ofVariables op).Within _) :
    Preserves (Files N r chat gone sets f) (Operation.ofVariables op).perform :=
    hpieces.perform op hop
  cases op with
  | ofStore op =>
    cases op with
    | load => exact hpieces.silent load
    | suites => exact hpieces.silent (hpieces.bind load fun r => hpieces.pure r.suites)
    | definitions => exact hpieces.silent (hpieces.definitions load)
    | settings => exact hpieces.silent (hpieces.bind load fun r => hpieces.pure r.settings)
    | loadValues c => exact hpieces.silent (loaded hop)
    | getValue id c => exact hpieces.silent (hpieces.getValue (loaded hop) id)
    | setValue id c v => exact hpieces.setValue hop.1 hop.2 v
    | saveValues c => exact Meets.ofAction ((writing hchat).saveValues c trivial)
    | saveValuesSoon c =>
      exact Meets.ofAction (x := Storage.saveValuesSoon c) fun _ _ h => h.soon c
    | flush => exact Meets.ofAction (writing hchat).flush
    | close => exact Meets.ofAction (writing hchat).close
    | _ => exact hop.elim
  | ofVariables op =>
    cases op with
    | inherit source target floor only =>
      exact hpieces.silent (hpieces.inherit load (loaded hop.1) (fun id hid v =>
        hpieces.setValue hop.2.1 ⟨hop.2.1, hop.2.2 id hid⟩ v) floor)
    | _ => exact hvariables _ hop
  | ofSuites op => exact hop.elim

end Files

end TagLedger
