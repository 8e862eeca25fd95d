import TagLedger.Proofs.Numbering

/-!
# Identifiers are not given again

A new entry joins its stack at the end, with the next identifier. As long as nothing is inherited into
its chat, and each store writes the chat before the next store takes over, all later entries have
greater identifiers: the chat goes on above them wherever its values are, in memory, waiting to be
written, or in its document.

    the stack of the chat goes on above n  →  so it does after every faithful run     (tracks_beyond)
    a run on numbered documents  →  StackLaws                                            (stack_laws)
-/

namespace TagLedger

variable {N : Naming} {s t u : Storage} {r : Root} {chat other id : String} {vs : ChatValues}
  {n : Int} {old : Stack}

/-! ## Going on above a number -/

/-- Whoever reads the values of a chat from the text gets a stack that goes on above `n`. -/
def TextAbove (id : String) (n : Int) (text? : Option String) : Prop :=
  ∀ now raw, Storage.rawValues? text? = some raw →
    n < (ChatValues.stack (Storage.readValues ⟨now, false⟩ raw) id).nextId

/-- Whoever reads the text gets a root of the current version that defines the variable. -/
def TextDefines (id : String) (text? : Option String) : Prop :=
  ∃ text, text? = some text ∧ ∀ now, ∃ r,
    Storage.RootReading.ofText ⟨now, false⟩ text = .root r none ∧ id ∈ Json.keys r.definitions

/-- The stack of a variable in a chat goes on above `n`, and will do so when the chat is read from its
document. -/
structure Beyond (N : Naming) (id chat : String) (n : Int) (s : Storage) : Prop where
  covers : N.Covers s
  above : ∀ vs, s.store.usable? chat = some vs → n < (vs.stack id).nextId
  written : ∀ vs, s.store.usable? chat = some vs → chat ∈ s.store.dirty ∨
    (ChatValues.document chat vs).writable = false ∨
      TextAbove id n (s.shelf.find? (Store.valuesName N.valuesStart chat))
  unread : s.store.usable? chat = none →
    TextAbove id n (s.shelf.find? (Store.valuesName N.valuesStart chat))
  defined : s.store.usable? chat = none → s.store.root = none → s.store.removed = [] ∧
    TextDefines id (s.shelf.find? N.rootName)
  notGone : s.store.usable? chat = none → ∀ r, s.store.root = some r →
    s.store.isGone r id = false

theorem textAbove_text (hk : (Json.keys vs).Nodup)
    (hw : (ChatValues.document chat vs).writable = true) (habove : n < (vs.stack id).nextId) :
    TextAbove id n (some (ChatValues.text chat vs)) := fun now raw hraw => by
  rw [rawValues?_text hk chat hw] at hraw
  obtain rfl := Option.some.inj hraw
  rw [readValues_documents]
  exact habove

theorem Storage.stack_kept (h : s.store.isGone r id = false) (raw : List (String × Json)) :
    ChatValues.stack (s.kept r raw) id =
      ChatValues.stack (Storage.readValues ⟨s.clock.now, false⟩ raw) id := by
  unfold ChatValues.stack Storage.kept
  rw [Json.find?_filter fun id => !s.store.isGone r id, h]
  rfl

namespace Beyond

theorem looked (h : Beyond N id chat n s) (hroot : s.store.root = some r) (hc : N.used other)
    (hu : s.store.usable? other = none) :
    Beyond N id chat n (s.looked r other (Store.valuesName s.store.valuesStart other)).2 := by
  let name := Store.valuesName s.store.valuesStart other
  have hserved := Storage.usable?_looked s r other name
  have hothers (hne : other ≠ chat) := Storage.usable?_looked_other (s := s) (r := r) hne name
  have hdirty {c : String} (hmem : c ∈ s.store.dirty) :
      c ∈ (s.looked r other name).2.store.dirty := Storage.mem_dirty_looked.mpr (Or.inl hmem)
  obtain ⟨values, degraded, dirty, timer, hframe⟩ := Storage.looked_frame s r other name
  have hcovers : N.Covers (s.looked r other name).2 := h.covers.looked hc r name
  have hdocument : (s.looked r other name).2.shelf.find? (Store.valuesName N.valuesStart chat) =
      s.shelf.find? (Store.valuesName N.valuesStart chat) := by
    rw [hframe]
    rfl
  have hinMemory : (s.looked r other name).2.store.root = some r := by
    rw [hframe]
    exact hroot
  have hgone : (s.looked r other name).2.store.isGone r id = s.store.isGone r id := by
    rw [hframe]
    rfl
  change Beyond N id chat n (s.looked r other name).2
  generalize (s.looked r other name).2 = t at *
  have hnotGone (hunread : s.store.usable? chat = none) (r' : Root)
      (hr' : t.store.root = some r') : t.store.isGone r' id = false := by
    obtain rfl := Option.some.inj (hinMemory.symm.trans hr')
    exact hgone.trans (h.notGone hunread r hroot)
  by_cases he : other = chat
  · subst he
    have habove := h.unread hu
    refine ⟨hcovers, fun vs hvs => ?_, fun vs hvs => ?_, fun _ => ?_, fun _ hnone => ?_,
      fun _ => hnotGone hu⟩
    · rw [hserved, Option.map_eq_some_iff] at hvs
      obtain ⟨raw, hraw, rfl⟩ := hvs
      rw [Storage.stack_kept (h.notGone hu r hroot)]
      rw [← h.covers.valuesStart] at habove
      exact habove _ raw (Storage.rawValues?_of_rawOf? hraw)
    · rw [hdocument]
      exact Or.inr (Or.inr habove)
    · rw [hdocument]
      exact habove
    · exact absurd (hinMemory.symm.trans hnone) nofun
  · rw [← hothers he] at hnotGone
    exact
      { covers := hcovers
        above := fun vs hvs => h.above vs ((hothers he).symm.trans hvs)
        written := fun vs hvs => by
          rw [hdocument]
          exact (h.written vs ((hothers he).symm.trans hvs)).imp_left hdirty
        unread := fun hnone => by
          rw [hdocument]
          exact h.unread ((hothers he).symm.trans hnone)
        defined := fun _ hnone => absurd (hinMemory.symm.trans hnone) nofun
        notGone := hnotGone }

theorem stored (h : Beyond N id chat n s) (hu : s.store.usable? other = some vs)
    {new : ChatValues} (hnew : other = chat → n < (new.stack id).nextId) :
    Beyond N id chat n (s.stored other new) := by
  have hserved : (s.stored other new).store.usable? other = some new :=
    Store.usable?_soon (Store.not_degraded_of_usable hu) new s.clock.elapsed
  have hothers (hne : other ≠ chat) :
      (s.stored other new).store.usable? chat = s.store.usable? chat :=
    Store.usable?_setValues_other (s := s.store) hne new
  have hdirty (c : String) : c ∈ (s.stored other new).store.dirty ↔ c ∈ s.store.dirty ∨ c = other :=
    Store.mem_markDirty (s := s.store.setValues other new) c
  have hcovers : N.Covers (s.stored other new) := h.covers.stored hu new
  by_cases he : other = chat
  · subst he
    refine ⟨hcovers, fun ws hws => ?_, fun ws _ => Or.inl ((hdirty other).mpr (Or.inr rfl)), ?_, ?_, ?_⟩
    · obtain rfl := Option.some.inj (hserved.symm.trans hws)
      exact hnew rfl
    all_goals exact fun hnone => absurd (hserved.symm.trans hnone) nofun
  · exact
      { covers := hcovers
        above := fun ws hws => h.above ws ((hothers he).symm.trans hws)
        written := fun ws hws => (h.written ws ((hothers he).symm.trans hws)).imp_left fun hmem =>
          (hdirty chat).mpr (Or.inl hmem)
        unread := fun hnone => h.unread ((hothers he).symm.trans hnone)
        defined := fun hnone => h.defined ((hothers he).symm.trans hnone)
        notGone := fun hnone => h.notGone ((hothers he).symm.trans hnone) }

/-- What does not change while other documents are written. -/
theorem wrote (h : Beyond N id chat n s) (rootDirty : Bool) (rootTimer : Option Nat)
    (dirty : List String) (shelf : Shelf)
    (hdirty : chat ∈ s.store.dirty → chat ∈ dirty)
    (hdocument : shelf.find? (Store.valuesName N.valuesStart chat) =
      s.shelf.find? (Store.valuesName N.valuesStart chat))
    (hroot : s.store.root = none → shelf.find? N.rootName = s.shelf.find? N.rootName) :
    Beyond N id chat n { s with
      store := { s.store with rootDirty := rootDirty, rootTimer := rootTimer, dirty := dirty }
      shelf := shelf } where
  covers := { h.covers with }
  above := h.above
  written vs hvs := by
    rw [hdocument]
    exact (h.written vs hvs).imp_left hdirty
  unread hnone := by
    rw [hdocument]
    exact h.unread hnone
  defined hnone hunloaded := by
    rw [hroot hunloaded]
    exact h.defined hnone hunloaded
  notGone := h.notGone

theorem writing (hchat : N.used chat) :
    KeepsWriting (Always fun s => (s.Numbered ∧ s.Blank) ∧ Beyond N id chat n s) where
  timers f s rootTimer valuesTimer clock hs :=
    ⟨tracks_numbered.writing.timers f s rootTimer valuesTimer clock hs.1,
      { hs.2 with covers := { hs.2.covers with } }⟩
  dirtyRoot _ _ _ _ := trivial
  dirtyChats _ _ _ _ _ := trivial
  save _ f s hs := by
    refine ⟨tracks_numbered.writing.save trivial f s hs.1, KeepsFlushing.saveOf hs.2
      { hs.2 with covers := { hs.2.covers with } } fun r hroot _ _ => ?_⟩
    obtain ⟨rootDirty, shelf, hrun, hsame, -⟩ := s.attemptRoot_texts r
    rw [hs.2.covers.rootName] at hsame
    rw [hrun]
    exact hs.2.wrote _ _ s.store.dirty _ (fun h => h) (hsame _ (Ne.symm (N.apart chat hchat)))
      fun hnone => absurd (hroot.symm.trans hnone) nofun
  saveValues other _ f s hs := by
    have husable {vs : ChatValues} (hc : s.store.cached? other = some vs)
        (hd : s.store.isDegraded other = false) : s.store.usable? other = some vs :=
      (Store.usable?_of_not_degraded hd).trans hc
    refine ⟨tracks_numbered.writing.saveValues other trivial f s hs.1,
      KeepsFlushing.saveValuesOf hs.2 (fun vs hc hd hw => ?_) fun vs hc hd _ hw => ?_⟩
    · have hname := hs.2.covers.used other vs hc
      obtain ⟨dirty, shelf, hrun, hothers, hsame, htext⟩ := s.attemptChat_texts other vs
      rw [hs.2.covers.valuesStart] at hsame htext
      rw [hrun]
      by_cases he : other = chat
      · subst he
        have hu := husable hc hd
        have habove := hs.2.above vs hu
        have hsaved : other ∈ dirty ∨
            TextAbove id n (shelf.find? (Store.valuesName N.valuesStart other)) := by
          rcases htext with ⟨hdirty, -⟩ | ⟨-, htext⟩
          · exact Or.inl hdirty
          · rw [htext]
            split
            · next hempty =>
              subst hempty
              refine Or.inr fun now raw hraw => ?_
              obtain rfl := Option.some.inj hraw
              exact habove
            · next hne =>
              exact Or.inr (textAbove_text (hs.1.1.cached hc).2 (hw.resolve_left hne) habove)
        exact
          { covers := { hs.2.covers with }
            above := hs.2.above
            written := fun _ _ => hsaved.imp_right Or.inr
            unread := fun hnone => absurd (hu.symm.trans hnone) nofun
            defined := fun hnone => absurd (hu.symm.trans hnone) nofun
            notGone := fun hnone => absurd (hu.symm.trans hnone) nofun }
      · refine hs.2.wrote s.store.rootDirty s.store.rootTimer _ _
          (hothers chat (Ne.symm he)).mpr (hsame _ fun e => he (N.distinct _ _ hname hchat e))
          fun _ => hsame _ (N.apart other hname)
    · by_cases he : other = chat
      · subst he
        have hu := husable hc hd
        exact
          { covers := { hs.2.covers with }
            above := hs.2.above
            written := fun ws hws => by
              obtain rfl := Option.some.inj (hu.symm.trans hws)
              exact Or.inr (Or.inl hw)
            unread := fun hnone => absurd (hu.symm.trans hnone) nofun
            defined := fun hnone => absurd (hu.symm.trans hnone) nofun
            notGone := fun hnone => absurd (hu.symm.trans hnone) nofun }
      · exact hs.2.wrote s.store.rootDirty s.store.rootTimer _ s.shelf
          (fun hmem => List.mem_filter.mpr ⟨hmem, bne_iff_ne.mpr (Ne.symm he)⟩) rfl fun _ => rfl

/-- A root that is read leaves the chat where it was. -/
theorem load (hblank : s.Blank) (h : Beyond N id chat n s) :
    Beyond N id chat n (ended Storage.load s).2 := by
  cases hroot : s.store.root with
  | some r =>
    rw [Storage.ended_load_some hroot]
    exact h
  | none =>
    have hnone : s.store.usable? chat = none := by
      unfold Store.usable? Store.cached?
      rw [(hblank.unloaded hroot).1]
      split <;> rfl
    obtain ⟨hremoved, text, htext, hdefines⟩ := h.defined hnone hroot
    have habove := h.unread hnone
    let read : Storage := { s with shelf := (s.shelf.read s.store.rootName).2 }
    have hloaded (root : Root) (degraded : Bool)
        (hgone : degraded = true ∨ id ∈ Json.keys root.definitions) : Beyond N id chat n
          { read with store := { s.store with root := some root, rootDegraded := degraded } } :=
      { covers := { h.covers with }
        above := h.above
        written := h.written
        unread := h.unread
        defined := fun _ hnone => by cases hnone
        notGone := fun _ r hr => by
          obtain rfl := Option.some.inj hr
          unfold Store.isGone
          dsimp only
          rw [hremoved]
          rcases hgone with rfl | hid
          · rfl
          · rw [Option.isNone_eq_false_iff.mpr (Json.find?_isSome.mpr hid), Bool.and_false]
            rfl }
    cases ha : (s.shelf.read s.store.rootName).1 with
    | error e =>
      let t : Storage :=
        { read with store := { s.store with root := some .standard, rootDegraded := true } }
      obtain ⟨held, granted, hrun⟩ : ∃ held granted,
          ended Storage.load s = (.ok .standard, t.lined held granted) :=
        Storage.ended_load_lined hroot fun held granted => by
          rw [ha]
          rfl
      rw [hrun]
      have hb := hloaded .standard true (Or.inl rfl)
      exact { hb with covers := { hb.covers with } }
    | ok text? =>
      have hanswer : text? = some text := by
        unfold Shelf.read at ha
        dsimp only at ha
        split at ha
        · cases ha
        · rw [← Except.ok.inj ha, h.covers.rootName, htext]
      subst hanswer
      obtain ⟨root, hof, hid⟩ := hdefines s.clock.now
      obtain ⟨held, granted, hrun⟩ := Storage.ended_load_current hroot ha hof
      rw [hrun]
      have hb := hloaded root s.store.rootDegraded (Or.inr hid)
      exact { hb with covers := { hb.covers with } }

end Beyond

/-! ## Runs that lose nothing -/

/-- A store writes everything before the next one takes over. The values of the chat are not too long
to be written, and the document of the root is of the current version and defines the variable. -/
structure ClosesWell (id chat : String) (s t : Storage) : Prop where
  closed : exec Storage.close s = (.ok (), t)
  writable : ∀ vs, t.store.usable? chat = some vs →
    (ChatValues.document chat vs).writable = true
  defined : TextDefines id (t.shelf.find? t.store.rootName)

/-- A run in which nothing is inherited into the chat, and nothing of it is lost. -/
abbrev Faithful (N : Naming) (id chat : String) : Storage → Storage → Prop :=
  StackRun (Operation.OnStacks N.used (· ≠ chat)) (ClosesWell id chat)

/-- The stack goes on above a number, whatever is asked. -/
theorem tracks_beyond (hchat : N.used chat) : Tracks N.used (· ≠ chat) fun s =>
    (s.Numbered ∧ s.Blank) ∧ Beyond N id chat n s where
  unlocked s held granted hs := ⟨tracks_numbered.unlocked s held granted hs.1,
    { hs.2 with covers := { hs.2.covers with } }⟩
  tidy hs := hs.1
  writing := Beyond.writing hchat
  load hs := ⟨tracks_numbered.load hs.1, hs.2.load hs.1.2⟩
  looked hs hroot hc hu := ⟨tracks_numbered.looked hs.1 hroot trivial hu, hs.2.looked hroot hc hu⟩
  changed := fun {s other vs id' new} hs hu hnew => by
    refine ⟨tracks_numbered.changed hs.1 hu hnew, hs.2.stored hu fun he => ?_⟩
    subst he
    have habove := hs.2.above vs hu
    rw [ChatValues.stack_insert]
    split
    · next he => exact lt_of_lt_of_le (he ▸ habove) hnew.nextId
    · exact habove
  copied hs hne hu hv :=
    ⟨tracks_numbered.copied hs.1 trivial hu hv, hs.2.stored hu fun he => absurd he hne⟩
  soon hs := ⟨tracks_numbered.soon hs.1,
    { hs.2 with
      covers := { hs.2.covers with }
      written := fun vs hvs => (hs.2.written vs hvs).imp_left fun hmem =>
        (Store.mem_markDirty chat).mpr (Or.inl hmem) }⟩
  rootSoon hs := ⟨tracks_numbered.rootSoon hs.1, { hs.2 with covers := { hs.2.covers with } }⟩
  around _ _ hs := ⟨tracks_numbered.around _ _ hs.1, { hs.2 with covers := { hs.2.covers with } }⟩

/-- A stack that was just stored goes on above what is below its next identifier. -/
theorem Beyond.of_stored {new : Stack} (hu : s.store.usable? chat = some vs)
    (hcovers : N.Covers (s.stored chat (Json.insert vs id (.stack new)))) (hn : n < new.nextId) :
    Beyond N id chat n (s.stored chat (Json.insert vs id (.stack new))) := by
  have hserved : (s.stored chat (Json.insert vs id (.stack new))).store.usable? chat =
      some (Json.insert vs id (.stack new)) :=
    Store.usable?_soon (Store.not_degraded_of_usable hu) _ _
  have hdirty : chat ∈ (s.stored chat (Json.insert vs id (.stack new))).store.dirty :=
    (Store.mem_markDirty (s := s.store.setValues chat _) chat).mpr (Or.inr rfl)
  refine ⟨hcovers, fun ws hws => ?_, fun _ _ => Or.inl hdirty, ?_, ?_, ?_⟩
  · obtain rfl := Option.some.inj (hserved.symm.trans hws)
    rwa [ChatValues.stack_insert, if_pos rfl]
  all_goals exact fun hnone => absurd (hserved.symm.trans hnone) nofun

/-- A store that takes over what was written goes on where the one before was. -/
theorem Beyond.anew (hchat : N.used chat) (hs : (s.Numbered ∧ s.Blank) ∧ Beyond N id chat n s)
    (h : ClosesWell id chat s t) (debounce epoch : Nat) :
    Beyond N id chat n (t.anew debounce epoch) := by
  obtain ⟨-, hb⟩ : (t.Numbered ∧ t.Blank) ∧ Beyond N id chat n t := by
    have hkept := (Beyond.writing hchat).close none s hs
    rwa [h.closed] at hkept
  have hclean := (Storage.clean_of_close h.closed).2
  have hdefined := h.defined
  rw [hb.covers.rootName] at hdefined
  refine ⟨⟨hb.covers.rootName, hb.covers.valuesStart, nofun⟩, nofun, nofun, fun _ => ?_,
    fun _ _ => ⟨rfl, hdefined⟩, nofun⟩
  cases hu : t.store.usable? chat with
  | none => exact hb.unread hu
  | some vs =>
    rcases hb.written vs hu with hdirty | hlong | hsaved
    · have hcached := Store.usable?_of_not_degraded (Store.not_degraded_of_usable hu)
      rw [hu, hclean chat hdirty] at hcached
      contradiction
    · exact absurd (hlong.symm.trans (h.writable vs hu)) nofun
    · exact hsaved

theorem Beyond.run (hchat : N.used chat) (hs : (s.Numbered ∧ s.Blank) ∧ Beyond N id chat n s)
    (hrun : Faithful N id chat s t) : (t.Numbered ∧ t.Blank) ∧ Beyond N id chat n t := by
  refine (tracks_beyond hchat).run (fun {s t} debounce epoch hs hleaves => ?_) hs hrun
  have hkept := (Beyond.writing hchat).close none s hs
  rw [hleaves.closed] at hkept
  exact ⟨Storage.Numbered.anew hkept.1.1.documents debounce epoch,
    Beyond.anew hchat hs hleaves debounce epoch⟩

/-! ## One stack -/

namespace Variables

/-- Appends entries one after another. -/
def addEntries (id chat : String) : List (String × String) → Activity Storage (List Entry)
  | [] => return []
  | (content, floors) :: l => do
    let e ← addEntry id chat content floors
    return e :: (← addEntries id chat l)

theorem ended_stack_of_load (h : ended (Storage.loadValues chat) s = (.ok vs, t)) (id : String) :
    ended (stack id chat) s = (.ok (vs.stack id), t) := by
  unfold stack Storage.getValue
  rw [ended_bind_ok (ended_bind_ok h _) _]
  unfold ChatValues.stack
  cases Json.find? vs id with
  | none => rfl
  | some v => cases v <;> rfl

theorem ended_stack_usable (hu : s.store.usable? chat = some vs) (id : String) :
    ended (stack id chat) s = (.ok (vs.stack id), s) :=
  ended_stack_of_load (Storage.ended_loadValues_usable hu) id

theorem ended_stack_stored (hu : s.store.usable? chat = some vs) (id : String) (new : Stack) :
    ended (stack id chat) (s.stored chat (Json.insert vs id (.stack new))) =
      (.ok new, s.stored chat (Json.insert vs id (.stack new))) := by
  have hstored : (s.stored chat (Json.insert vs id (.stack new))).store.usable? chat =
      some (Json.insert vs id (.stack new)) :=
    Store.usable?_soon (Store.not_degraded_of_usable hu) _ _
  rw [ended_stack_usable hstored, ChatValues.stack_insert, if_pos rfl]

/-- A new entry joins its stack at the end. -/
theorem ended_addEntry (hrun : ended (stack id chat) s = (.ok old, t))
    (hu : t.store.usable? chat = some vs) (content floors : String) :
    ended (addEntry id chat content floors) s =
      (.ok ⟨old.nextId, content, floors, t.clock.now, false⟩,
        t.stored chat (Json.insert vs id (.stack (old.push content floors t.clock.now)))) := by
  unfold addEntry
  rw [ended_bind_ok hrun]
  refine (ended_bind_ok (x := .ofAction Storage.now) (Storage.exec_now t) _).trans ?_
  exact ended_bind_ok (Storage.ended_editValue_usable hu id _) _

theorem ended_addEntry_refused (hrun : ended (stack id chat) s = (.ok old, t))
    (hd : t.store.isDegraded chat = true) (hcached : t.store.cached? chat = some [])
    (content floors : String) :
    ended (addEntry id chat content floors) s = (.error (.storage (.chatUnreadable chat)), t) := by
  have hnone : t.store.value? id chat = none := by
    unfold Store.value?
    rw [hcached]
    rfl
  unfold addEntry
  rw [ended_bind_ok hrun]
  refine (ended_bind_ok (x := .ofAction Storage.now) (Storage.exec_now t) _).trans ?_
  exact ended_bind_error (Storage.ended_editValue_refused hd hnone _) _

/-- The first entry of a variable in a chat without a document. -/
theorem ended_addEntry_first (chat : String) {text : String} (hroot : s.store.root = none)
    (hempty : s.store.values = [])
    (hanswer : (s.shelf.read s.store.rootName).1 = .ok (some text))
    (hof : Storage.RootReading.ofText ⟨s.clock.now, false⟩ text = .root r none)
    (hmissing : (s.shelf.read (Store.valuesName s.store.valuesStart chat)).1 = .ok none)
    (id content floors : String) : ∃ t,
    ended (addEntry id chat content floors) s =
      (.ok ⟨1, content, floors, s.clock.now, false⟩, t) ∧
      ended (stack id chat) t = (.ok ⟨[⟨1, content, floors, s.clock.now, false⟩], 2⟩, t) ∧
      t.store.rootName = s.store.rootName ∧ t.store.valuesStart = s.store.valuesStart ∧
      t.clock = s.clock ∧ ∀ name, (t.shelf.read name).1 = (s.shelf.read name).1 := by
  obtain ⟨held, granted, hload⟩ := Storage.ended_load_current hroot hanswer hof
  have hnone : s.store.usable? chat = none := by
    unfold Store.usable? Store.cached?
    rw [hempty]
    split <;> rfl
  obtain ⟨held', granted', hloaded⟩ := Storage.ended_loadValues_of_load hnone hload
  let name := Store.valuesName s.store.valuesStart chat
  let u : Storage := Storage.lined { s with
    store := { s.store with root := some r }
    shelf := (s.shelf.read s.store.rootName).2 } held granted
  change ended (Storage.loadValues chat) s =
    (.ok (u.loaded r chat).1, (u.loaded r chat).2.lined held' granted') at hloaded
  have hunread : (u.shelf.read name).1 = .ok none := hmissing
  have hnothing : (u.looked r chat name).1 = [] := by
    unfold Storage.looked Storage.taken
    rw [hunread]
    rfl
  have husable : (u.looked r chat name).2.store.usable? chat = some [] := by
    rw [Storage.usable?_looked, hunread]
    rfl
  obtain ⟨values, degraded, dirty, timer, hframe⟩ := Storage.looked_frame u r chat name
  have hlooked : u.loaded r chat = u.looked r chat name :=
    Storage.loaded_unusable (s := u) hnone r
  rw [hlooked, hnothing] at hloaded
  have hstack : ended (stack id chat) s =
      (.ok .empty, (u.looked r chat name).2.lined held' granted') := by
    unfold stack Storage.getValue
    rw [ended_bind_ok (ended_bind_ok hloaded _) _]
    rfl
  have hadded := ended_addEntry hstack husable content floors
  have hthen := ended_stack_stored (s := (u.looked r chat name).2.lined held' granted') husable id
    (Stack.empty.push content floors s.clock.now)
  rw [hframe] at hadded hthen
  exact ⟨_, hadded, hthen, rfl, rfl, rfl, fun _ => rfl⟩

theorem ended_addEntries (hrun : ended (stack id chat) s = (.ok old, t))
    (hu : t.store.usable? chat = some vs) (l : List (String × String)) :
    ∃ es u, ended (addEntries id chat l) s = (.ok es, u) ∧
      es.map (·.id) = (List.range l.length).map fun (i : Nat) => old.nextId + i := by
  induction l generalizing s old t vs with
  | nil => exact ⟨[], s, rfl, rfl⟩
  | cons x l ih =>
    obtain ⟨content, floors⟩ := x
    have hadd := ended_addEntry hrun hu content floors
    have hstack := ended_stack_stored hu id (old.push content floors t.clock.now)
    obtain ⟨es, u, hrest, hids⟩ := ih hstack
      (Store.usable?_soon (Store.not_degraded_of_usable hu) _ _)
    refine ⟨_ :: es, u, (ended_bind_ok hadd _).trans (ended_bind_ok hrest _), ?_⟩
    rw [List.map_cons, hids, List.length_cons, List.range_succ_eq_map, List.map_cons, List.map_map,
      Stack.nextId_push]
    refine congrArg₂ _ (Int.add_zero _).symm (List.map_congr_left fun i _ => ?_)
    dsimp only [Function.comp_apply]
    omega

/-- A new order is taken exactly if it is an order of the identifiers. -/
theorem ended_reorderEntries (hrun : ended (stack id chat) s = (.ok old, t))
    (hold : old.Numbered) (hu : old.entries ≠ [] → ∃ vs, t.store.usable? chat = some vs)
    (order : List Int) : ∃ answer u,
      ended (reorderEntries id chat order) s = (.ok answer, u) ∧
        (answer = .ok () ↔ old.entries ≠ [] ∧ order.Perm (old.entries.map (·.id))) ∧
        (answer = .ok () → ∃ new, (ended (stack id chat) u).1 = .ok new ∧
          new.entries.map (·.id) = order ∧ new.entries.Perm old.entries ∧
          new.nextId = old.nextId) := by
  unfold reorderEntries
  rw [ended_bind_ok hrun]
  by_cases hempty : old.entries = []
  · refine ⟨.error .noEntries, t, ?_, ⟨nofun, fun h => absurd hempty h.1⟩, nofun⟩
    rw [hempty]
    rfl
  · rw [if_neg (by rwa [List.isEmpty_iff])]
    cases hnew : old.reorder? order with
    | none =>
      refine ⟨.error .badOrder, t, rfl, ⟨nofun, fun h => ?_⟩, nofun⟩
      have hsome := (Stack.reorder?_isSome_iff hold).mpr h.2
      rw [hnew] at hsome
      contradiction
    | some new =>
      obtain ⟨hperm, hshape⟩ := (Stack.reorder?_eq_some_iff hold).mp hnew
      obtain ⟨hids, hsame⟩ := Stack.of_perm hold hperm
      obtain ⟨vs, hvs⟩ := hu hempty
      refine ⟨.ok (), _, ended_bind_ok (Storage.ended_editValue_usable hvs id _) _,
        ⟨fun _ => ⟨hempty, hperm⟩, fun _ => rfl⟩, fun _ => ⟨new, ?_, ?_, ?_, ?_⟩⟩
      · rw [ended_stack_stored hvs]
      · rw [hshape]
        exact hids
      · rw [hshape]
        exact hsame
      · rw [hshape]

end Variables

/-- What comes of adding an entry in a chat that gets ready: the entry is refused, or it joins its stack
in memory. -/
theorem Variables.addEntry_cases {I : Storage → Prop}
    (hload : Meets I I (Storage.loadValues chat) fun vs s => I s ∧ s.Ready chat vs) (hs : I s)
    {content floors : String} {a : Except Failure Entry}
    (hadd : ended (addEntry id chat content floors) s = (a, t)) :
    (∃ e, a = .error e ∧ I t) ∨ ∃ u vs, I u ∧ u.store.usable? chat = some vs ∧
      a = .ok ⟨(vs.stack id).nextId, content, floors, u.clock.now, false⟩ ∧
      t = u.stored chat
        (Json.insert vs id (.stack ((vs.stack id).push content floors u.clock.now))) := by
  have hstack := Meets.stack hload id s hs
  rcases hrun : ended (stack id chat) s with ⟨b, u⟩
  rw [hrun] at hstack
  cases b with
  | error e =>
    have hfailed : ended (addEntry id chat content floors) s = (.error e, u) :=
      ended_bind_error hrun _
    obtain ⟨rfl, rfl⟩ := Prod.mk.inj (hadd.symm.trans hfailed)
    exact .inl ⟨e, rfl, hstack⟩
  | ok old =>
    obtain ⟨hu, vs, hready | ⟨hd, hcached, -⟩, rfl⟩ := hstack
    · obtain ⟨rfl, rfl⟩ := Prod.mk.inj (hadd.symm.trans (ended_addEntry hrun hready _ _))
      exact .inr ⟨u, vs, hu, hready, rfl, rfl⟩
    · obtain ⟨rfl, rfl⟩ := Prod.mk.inj
        (hadd.symm.trans (ended_addEntry_refused hrun hd hcached _ _))
      exact .inl ⟨_, rfl, hu⟩

/-- The identifier of a new entry is above what its stack goes on above. -/
theorem Beyond.lt_id (hchat : N.used chat) (hs : (s.Numbered ∧ s.Blank) ∧ Beyond N id chat n s)
    {content floors : String} {e : Entry}
    (hadd : ended (Variables.addEntry id chat content floors) s = (.ok e, t)) : n < e.id := by
  rcases Variables.addEntry_cases ((tracks_beyond hchat).loadValues hchat) hs hadd with
    ⟨_, hfailed, -⟩ | ⟨u, vs, hu, hready, he, -⟩
  · cases hfailed
  · obtain rfl := Except.ok.inj he
    exact hu.2.above vs hready

/-! ## The laws -/

/-- What holds of the stack of a variable in a chat that is served as `old`, which leaves `t`. -/
structure StackLaws (s : Storage) (id chat : String) (old : Stack) (t : Storage) : Prop where
  numbered : old.Numbered
  /-- A new entry joins at the end, with the next identifier. -/
  appends : t.store.isDegraded chat = false → ∀ content floors, ∃ e u,
    ended (Variables.addEntry id chat content floors) s = (.ok e, u) ∧
      e = ⟨old.nextId, content, floors, t.clock.now, false⟩ ∧
      (ended (Variables.stack id chat) u).1 = .ok ⟨old.entries ++ [e], old.nextId + 1⟩
  /-- A chat that cannot be read shows no entries and takes none. -/
  refuses : t.store.isDegraded chat = true → old = .empty ∧ ∀ content floors,
    ended (Variables.addEntry id chat content floors) s =
      (.error (.storage (.chatUnreadable chat)), t)
  /-- A new order is taken exactly if it is one of the identifiers, and there are any. -/
  reorders : ∀ order, ∃ answer u,
    ended (Variables.reorderEntries id chat order) s = (.ok answer, u) ∧
      (answer = .ok () ↔ old.entries ≠ [] ∧ order.Perm (old.entries.map (·.id))) ∧
      (answer = .ok () → ∃ new, (ended (Variables.stack id chat) u).1 = .ok new ∧
        new.entries.map (·.id) = order ∧ new.entries.Perm old.entries ∧
        new.nextId = old.nextId)
  /-- An identifier that was given to an entry is given to none that is added later. -/
  neverAgain : ∀ (N : Naming) content floors e u,
    ended (Variables.addEntry id chat content floors) s = (.ok e, u) → N.Covers u →
      ∀ v, Faithful N id chat u v → ∀ content' floors' e' w,
        ended (Variables.addEntry id chat content' floors') v = (.ok e', w) → e.id < e'.id
  /-- The entries of a variable that had no value are counted from one. -/
  counts : (ended (Storage.getValue id chat) s).1 = .ok none → t.store.isDegraded chat = false →
    ∀ l, ∃ es u, ended (Variables.addEntries id chat l) s = (.ok es, u) ∧
      es.map (·.id) = (List.range l.length).map fun (i : Nat) => (i : Int) + 1

theorem stackLaws_of_tidy (hs : s.Numbered ∧ s.Blank)
    (hrun : ended (Variables.stack id chat) s = (.ok old, t)) : StackLaws s id chat old t := by
  have hmeets : Meets _ _ (Variables.stack id chat) _ := tracks_numbered.stack trivial id
  have hstack := hmeets s hs
  rw [hrun] at hstack
  obtain ⟨ht, vs, hready, rfl⟩ := hstack
  have husable (hd : t.store.isDegraded chat = false) : t.store.usable? chat = some vs :=
    hready.resolve_right fun h => absurd (hd.symm.trans h.1) nofun
  have hdegraded (hd : t.store.isDegraded chat = true) :
      t.store.cached? chat = some [] ∧ vs = [] :=
    (hready.resolve_left fun h =>
      absurd (hd.symm.trans (Store.not_degraded_of_usable h)) nofun).2
  have hnumbered : (vs.stack id).Numbered := by
    rcases hready with hu | ⟨-, -, rfl⟩
    · exact (ht.1.usable hu).stack id
    · exact Stack.numbered_empty
  refine ⟨hnumbered, fun hd content floors => ?_, fun hd => ?_, fun order => ?_, ?_, ?_⟩
  · have hu := husable hd
    refine ⟨_, _, Variables.ended_addEntry hrun hu content floors, rfl, ?_⟩
    rw [Variables.ended_stack_stored hu]
    rfl
  · obtain ⟨hcached, rfl⟩ := hdegraded hd
    exact ⟨rfl, Variables.ended_addEntry_refused hrun hd hcached⟩
  · refine Variables.ended_reorderEntries hrun hnumbered (fun hne => ⟨vs, husable ?_⟩) order
    by_contra hd
    rw [Bool.not_eq_false] at hd
    obtain ⟨-, rfl⟩ := hdegraded hd
    exact hne rfl
  · intro N content floors e u hadd hcovers v hfaithful content' floors' e' w hagain
    cases hd : t.store.isDegraded chat with
    | true =>
      obtain ⟨hcached, -⟩ := hdegraded hd
      rw [Variables.ended_addEntry_refused hrun hd hcached] at hadd
      cases (Prod.mk.inj hadd).1
    | false =>
      have hu := husable hd
      rw [Variables.ended_addEntry hrun hu] at hadd
      obtain ⟨he, rfl⟩ := Prod.mk.inj hadd
      obtain rfl := Except.ok.inj he
      have hpush := Stack.Follows.push (vs.stack id) content floors t.clock.now
      have hchat : N.used chat := hcovers.used chat _ ((Store.cached?_setValues _ _ _ _).trans
        (if_pos rfl))
      have hbeyond := Beyond.of_stored (n := (vs.stack id).nextId) hu hcovers (Int.lt_succ _)
      exact Beyond.lt_id hchat
        (Beyond.run hchat ⟨tracks_numbered.changed ht hu hpush, hbeyond⟩ hfaithful) hagain
  · intro hnone hd l
    have hempty : vs.stack id = .empty := by
      rcases hget : ended (Storage.getValue id chat) s with ⟨a, u⟩
      rw [hget] at hnone
      obtain rfl : a = .ok none := hnone
      unfold Variables.stack at hrun
      rw [ended_bind_ok hget] at hrun
      exact (Except.ok.inj (Prod.mk.inj hrun).1).symm
    obtain ⟨es, u, hadded, hids⟩ := Variables.ended_addEntries hrun (husable hd) l
    refine ⟨es, u, hadded, hids.trans (List.map_congr_left fun i _ => ?_)⟩
    rw [hempty]
    exact Int.add_comm 1 i

/-- Whatever comes of a new store on numbered documents, all stacks are numbered in memory and in the
documents, and follow the laws. -/
theorem stack_laws (debounce epoch : Nat) (hdocuments : ∀ d ∈ s.shelf.documents, NumberedText d.2)
    (hrun : StackRun (Operation.OnStacks (fun _ => True) fun _ => True) Eq
      (s.anew debounce epoch) t) :
    t.Numbered ∧ ∀ id chat old u, ended (Variables.stack id chat) t = (.ok old, u) →
      StackLaws t id chat old u := by
  have ht := tracks_numbered.run (fun {s t} debounce epoch hs h =>
    Storage.Numbered.anew (h ▸ hs.1.documents) debounce epoch)
    (Storage.Numbered.anew hdocuments debounce epoch) hrun
  exact ⟨ht.1, fun id chat old u hstack => stackLaws_of_tidy ht hstack⟩

/-- The text of a root that defines one variable. -/
theorem oneVariable_text : ∃ text, NumberedText text ∧ ∃ r,
    (∀ now, Storage.RootReading.ofText ⟨now, false⟩ text = .root r none) ∧
      "var_log" ∈ Json.keys r.definitions := by
  let r : Root := { Root.standard with
    definitions := [("var_log", ⟨"var_log", "log", "[log]", .stack, 0, 0⟩)] }
  have hsound : r.Sound := Synced.sound_standard.withDefinitions (by decide)
  have hwritable : r.document.writable = true := by decide
  exact ⟨r.text, numberedText_root hsound hwritable, r,
    fun _ => ofText_text hsound hwritable, List.mem_singleton_self _⟩

/-- One entry is added in a new store. -/
theorem stack_laws_one : ∃ (s t u : Storage) (old : Stack),
    (∀ d ∈ s.shelf.documents, NumberedText d.2) ∧
      StackRun (Operation.OnStacks (fun _ => True) fun _ => True) Eq (s.anew 0 0) t ∧
      ended (Variables.stack "var_log" "c") t = (.ok old, u) ∧
      old.entries.map (·.id) = [1] ∧ t.Numbered ∧ StackLaws t "var_log" "c" old u := by
  obtain ⟨text, htext, r, hof, -⟩ := oneVariable_text
  let s : Storage := ⟨.empty "root" "values-" 0 0, .ofDocuments [("root", text)], ⟨0, 0⟩, .start⟩
  have hdocuments : ∀ d ∈ s.shelf.documents, NumberedText d.2 := fun d hd => by
    obtain rfl := List.mem_singleton.mp hd
    exact htext
  obtain ⟨t, hadded, hstack, -⟩ := Variables.ended_addEntry_first (s := s.anew 0 0) "c" rfl rfl rfl
    (hof 0) rfl "var_log" "one" "1"
  have hrun : StackRun (Operation.OnStacks (fun _ => True) fun _ => True) Eq (s.anew 0 0) t := by
    have hask : StackStep (Operation.OnStacks (fun _ => True) fun _ => True) Eq (s.anew 0 0) _ :=
      .ask (.ofVariables (.addEntry "var_log" "c" "one" "1")) trivial
    have hsilent : ended (Operation.perform
        (.ofVariables (.addEntry "var_log" "c" "one" "1"))) (s.anew 0 0) = (.ok (), t) :=
      ended_bind_ok hadded _
    rw [hsilent] at hask
    exact .single hask
  obtain ⟨hnumbered, hlaws⟩ := stack_laws 0 0 hdocuments hrun
  exact ⟨s, t, t, _, hdocuments, hrun, hstack, rfl, hnumbered, hlaws _ _ _ _ hstack⟩

/-- If a store is lost before it wrote a chat, then the next one gives the same identifier again, also
if nothing is inherited. -/
theorem id_given_again : ∃ (s t u : Storage) (e e' : Entry),
    (∀ d ∈ s.shelf.documents, NumberedText d.2) ∧
      TextDefines "var_log" (s.shelf.find? s.store.rootName) ∧
      ended (Variables.addEntry "var_log" "c" "one" "1") (s.anew 0 0) = (.ok e, t) ∧
      StackRun (Operation.OnStacks (fun _ => True) fun _ => False) Eq t (t.anew 0 0) ∧
      ended (Variables.addEntry "var_log" "c" "two" "2") (t.anew 0 0) = (.ok e', u) ∧
      e'.id = e.id := by
  obtain ⟨text, htext, r, hof, hdefined⟩ := oneVariable_text
  let s : Storage := ⟨.empty "root" "values-" 0 0, .ofDocuments [("root", text)], ⟨0, 0⟩, .start⟩
  obtain ⟨t, hfirst, -, hrootName, hstart, -, hanswers⟩ := Variables.ended_addEntry_first
    (s := s.anew 0 0) "c" rfl rfl rfl (hof 0) rfl "var_log" "one" "1"
  have hagain : (t.shelf.read t.store.rootName).1 = .ok (some text) := by
    rw [hrootName, hanswers]
    rfl
  have hmissing : (t.shelf.read (Store.valuesName t.store.valuesStart "c")).1 = .ok none := by
    rw [hstart, hanswers]
    rfl
  obtain ⟨u, hsecond, -⟩ := Variables.ended_addEntry_first (s := t.anew 0 0) "c" rfl rfl hagain
    (hof _) hmissing "var_log" "two" "2"
  refine ⟨s, t, u, _, _, fun d hd => ?_, ⟨text, rfl, fun now => ⟨r, hof now, hdefined⟩⟩, hfirst,
    .single (.renew 0 0 rfl), hsecond, rfl⟩
  obtain rfl := List.mem_singleton.mp hd
  exact htext

end TagLedger
