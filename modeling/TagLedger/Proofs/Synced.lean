import TagLedger.Proofs.Loading
import TagLedger.Proofs.Operations

/-!
# Memory and documents

While the shelf refuses nothing, a document that is not dirty holds the text of what is in memory,
and there is no document of a chat without values. So when everything was written, a store that is
opened anew on these documents serves what this one serves.

    Synced N r values held s → exec flush s leaves nothing dirty      (Synced.flushing)
    Synced N r values held s, nothing dirty → a new store serves r    (Synced.reopened)
-/

namespace TagLedger

/-! ## The invariant -/

/-- A root and values of chats that can be told from their documents. -/
structure Contents (N : Naming) (r : Root) (values : List (String × ChatValues)) : Prop where
  sound : r.Sound
  used : ∀ c ∈ Json.keys values, N.used c
  distinct : (Json.keys values).Nodup
  once : ∀ c ∈ values, (Json.keys c.2).Nodup

/-- Every variable that has a value has a definition. -/
def Defined (r : Root) (values : List (String × ChatValues)) : Prop :=
  ∀ c ∈ values, ∀ id ∈ Json.keys c.2, id ∈ Json.keys r.definitions

/-- All whole numbers are short enough to be written. -/
structure InLimit (r : Root) (values : List (String × ChatValues)) : Prop where
  root : r.document.writable = true
  values : ∀ c ∈ values, (ChatValues.document c.1 c.2).writable = true

/-- The text under which the values of a chat are kept, if it has any. -/
def textOf? (values : List (String × ChatValues)) (chat : String) : Option String :=
  (Json.find? values chat).bind fun vs => if vs = [] then none else some (ChatValues.text chat vs)

/-- The values that a chat shows. -/
def shownIn (values : List (String × ChatValues)) (chat : String) : ChatValues :=
  (Json.find? values chat).getD []

/-- The storage has `r` and `values` in memory, and the documents that are not dirty hold them. -/
structure Synced (N : Naming) (r : Root) (values : List (String × ChatValues))
    (held : List (Lock × Nat)) (s : Storage) : Prop where
  rootName : s.store.rootName = N.rootName
  valuesStart : s.store.valuesStart = N.valuesStart
  inMemory : s.store.root = some r
  chats : s.store.values = values
  unmarked : s.store.rootDegraded = false
  readable : s.store.degraded = []
  lines : s.store.held = held
  accepts : ∀ a, s.shelf.refuses a = false
  contents : Contents N r values
  rootWritten : s.store.rootDirty = false → s.shelf.find? N.rootName = some r.text
  written : ∀ c, N.used c → c ∉ s.store.dirty ∨ c ∉ Json.keys values →
    s.shelf.find? (Store.valuesName N.valuesStart c) = textOf? values c

/-- Everything in memory was written. -/
def Clean (values : List (String × ChatValues)) (s : Storage) : Prop :=
  s.store.rootDirty = false ∧ ∀ c ∈ s.store.dirty, c ∉ Json.keys values

/-- A store that was not used yet. -/
structure Fresh (N : Naming) (s : Storage) : Prop where
  rootName : s.store.rootName = N.rootName
  valuesStart : s.store.valuesStart = N.valuesStart
  root : s.store.root = none
  unmarked : s.store.rootDegraded = false
  values : s.store.values = []
  readable : s.store.degraded = []
  dirty : s.store.dirty = []
  removed : s.store.removed = []
  lines : s.store.held = []

/-- A store that was not used yet, on a shelf that refuses nothing. -/
structure New (N : Naming) (s : Storage) : Prop extends Fresh N s where
  accepts : ∀ a, s.shelf.refuses a = false

theorem fresh_empty (N : Naming) (debounce epoch : Nat) (shelf : Shelf) (clock : Clock)
    (random : Identifier.Random) :
    Fresh N ⟨.empty N.rootName N.valuesStart debounce epoch, shelf, clock, random⟩ :=
  ⟨rfl, rfl, rfl, rfl, rfl, rfl, rfl, rfl, rfl⟩

variable {N : Naming} {r : Root} {values : List (String × ChatValues)} {held : List (Lock × Nat)}
  {s : Storage} {chat : String}

theorem textOf?_of_not_mem (h : chat ∉ Json.keys values) : textOf? values chat = none := by
  unfold textOf?
  rw [Json.find?_eq_none.mpr h]
  rfl

theorem find?_written (s : Shelf) (name text other : String) :
    (s.written name text).find? other = if name = other then some text else s.find? other :=
  Json.find?_insert s.documents name text other

theorem find?_dropped (s : Shelf) (name other : String) :
    (s.dropped name).find? other = if name = other then none else s.find? other := by
  have h := Json.find?_filter (fun k => k != name) s.documents other
  refine h.trans ?_
  by_cases hne : name = other
  · subst hne
    simp
  · rw [if_neg hne, if_pos (bne_iff_ne.mpr (Ne.symm hne))]
    rfl

namespace Synced

/-- Timers, the clock and what else the invariant does not speak of may change. -/
theorem quiet (h : Synced N r values held s) {rootTimer valuesTimer : Option Nat}
    {removed : List String} {clock : Clock} {random : Identifier.Random} :
    Synced N r values held
      { s with
        store := { s.store with
          rootTimer := rootTimer, valuesTimer := valuesTimer, removed := removed }
        clock := clock, random := random } :=
  { h with }

theorem cached_iff (h : Synced N r values held s) : s.store.cached? chat = Json.find? values chat := by
  unfold Store.cached?
  rw [h.chats]

theorem not_degraded (h : Synced N r values held s) (chat : String) :
    s.store.isDegraded chat = false := by
  unfold Store.isDegraded
  rw [h.readable]
  rfl

/-! ## Writing -/

theorem save (h : Synced N r values held s) (hl : InLimit r values) :
    ∃ t, exec Storage.save s = (.ok (), t) ∧ Synced N r values held t ∧
      t.store.rootDirty = false ∧ t.store.dirty = s.store.dirty := by
  rw [Storage.exec_save_root h.inMemory h.unmarked hl.root, Storage.attemptRoot]
  simp only [h.accepts, Bool.false_eq_true, if_false]
  refine ⟨_, rfl, ?_, rfl, rfl⟩
  exact { h with
    rootWritten := fun _ => by
      rw [find?_written, h.rootName, if_pos rfl]
    written := fun c hc hclean => by
      rw [find?_written, h.rootName, if_neg (N.apart c hc).symm]
      exact h.written c hc hclean }

/-- After the values of a chat were written, the chat is not dirty any more. -/
theorem saveValues (h : Synced N r values held s) (hl : InLimit r values) (chat : String) :
    ∃ t, exec (Storage.saveValues chat) s = (.ok (), t) ∧ Synced N r values held t ∧
      t.store.rootDirty = s.store.rootDirty ∧
      ∀ c ∈ t.store.dirty, c ∈ s.store.dirty ∧ (c = chat → c ∉ Json.keys values) := by
  cases hc : Json.find? values chat with
  | none =>
    rw [Storage.exec_saveValues_none (h.cached_iff.trans hc)]
    refine ⟨s, rfl, h, rfl, fun c hmem => ⟨hmem, ?_⟩⟩
    rintro rfl
    exact Json.find?_eq_none.mp hc
  | some vs =>
    have hused := h.contents.used chat (Json.mem_keys_of_find? hc)
    have hw : (ChatValues.document chat vs).writable = true :=
      hl.values (chat, vs) (Json.mem_of_find? hc)
    rw [Storage.exec_saveValues_chat (h.cached_iff.trans hc) (h.not_degraded chat) (.inr hw),
      Storage.attemptChat]
    simp only [h.accepts, Bool.false_eq_true, if_false]
    have hdirty (c : String) (hmem : c ∈ s.store.dirty.filter (· != chat)) :
        c ∈ s.store.dirty ∧ (c = chat → c ∉ Json.keys values) := by
      rw [List.mem_filter, bne_iff_ne] at hmem
      exact ⟨hmem.1, fun e => absurd e hmem.2⟩
    have hother (c : String) (hcu : N.used c) (hne : c ≠ chat) :
        Store.valuesName N.valuesStart chat ≠ Store.valuesName N.valuesStart c :=
      fun e => hne (N.distinct chat c hused hcu e).symm
    have hclean (c : String) (hne : c ≠ chat)
        (hd : c ∉ s.store.dirty.filter (· != chat) ∨ c ∉ Json.keys values) :
        c ∉ s.store.dirty ∨ c ∉ Json.keys values := by
      rw [List.mem_filter, bne_iff_ne] at hd
      exact hd.imp (fun hd hmem => hd ⟨hmem, hne⟩) id
    split
    · next hempty =>
      refine ⟨_, rfl, ?_, rfl, hdirty⟩
      exact { h with
        rootWritten := fun hr => by
          rw [find?_dropped, h.valuesStart, if_neg (N.apart chat hused)]
          exact h.rootWritten hr
        written := fun c hcu hd => by
          rw [find?_dropped, h.valuesStart]
          by_cases hne : c = chat
          · subst hne
            rw [if_pos rfl, textOf?, hc, Option.bind_some, if_pos hempty]
          · rw [if_neg (hother c hcu hne)]
            exact h.written c hcu (hclean c hne hd) }
    · next hfull =>
      refine ⟨_, rfl, ?_, rfl, hdirty⟩
      exact { h with
        rootWritten := fun hr => by
          rw [find?_written, h.valuesStart, if_neg (N.apart chat hused)]
          exact h.rootWritten hr
        written := fun c hcu hd => by
          rw [find?_written, h.valuesStart]
          by_cases hne : c = chat
          · subst hne
            rw [if_pos rfl, textOf?, hc, Option.bind_some, if_neg hfull]
          · rw [if_neg (hother c hcu hne)]
            exact h.written c hcu (hclean c hne hd) }

/-- What can be written is not reported. -/
theorem noting {x : Action Storage Unit} {t : Storage} (h : exec x s = (.ok (), t)) :
    exec (Storage.noting x) s = (.ok none, t) := by
  unfold Storage.noting
  rw [exec_tryCatch, exec_seqRight, h]
  rfl

theorem saveEach (hl : InLimit r values) (chats : List String) :
    ∀ {s}, Synced N r values held s → ∃ t, exec (Storage.saveEach chats) s = (.ok [], t) ∧
      Synced N r values held t ∧ t.store.rootDirty = s.store.rootDirty ∧
      ∀ c ∈ t.store.dirty, c ∈ s.store.dirty ∧ (c ∈ chats → c ∉ Json.keys values) := by
  induction chats with
  | nil =>
    intro s h
    exact ⟨s, rfl, h, rfl, fun c hc => ⟨hc, nofun⟩⟩
  | cons chat chats ih =>
    intro s h
    obtain ⟨t, ht, hsynced, hroot, hdirty⟩ := h.saveValues hl chat
    obtain ⟨u, hu, hsynced', hroot', hdirty'⟩ := ih hsynced
    refine ⟨u, ?_, hsynced', hroot'.trans hroot, fun c hc => ?_⟩
    · rw [Storage.saveEach, exec_bind, noting ht]
      dsimp only
      rw [exec_bind, hu]
      rfl
    · obtain ⟨hmem, hrest⟩ := hdirty' c hc
      obtain ⟨hmem, hself⟩ := hdirty c hmem
      exact ⟨hmem, fun hin => (List.mem_cons.mp hin).elim hself hrest⟩

/-- Everything is written, and no fault is met. -/
theorem flushing (h : Synced N r values held s) (hl : InLimit r values) :
    ∃ t, exec Storage.flushing s = (.ok [], t) ∧ Synced N r values held t ∧ Clean values t := by
  obtain ⟨t, ht, hsynced, hroot⟩ : ∃ t, exec Storage.flushRoot s = (.ok none, t) ∧
      Synced N r values held t ∧ t.store.rootDirty = false := by
    rw [Storage.flushRoot, exec_bind, exec_get]
    dsimp only
    split
    · obtain ⟨t, ht, hsynced, hroot, -⟩ := h.save hl
      exact ⟨t, noting ht, hsynced, hroot⟩
    · next hclean =>
      refine ⟨s, rfl, h, ?_⟩
      rw [h.inMemory, Option.isSome_some, Bool.and_true] at hclean
      exact Bool.eq_false_iff.mpr hclean
  have hquiet : Synced N r values held { t with store := { t.store with valuesTimer := none } } :=
    hsynced.quiet
  obtain ⟨u, hu, hsynced', hroot', hdirty⟩ := saveEach hl t.store.dirty hquiet
  have hvalues : exec Storage.flushValues t = (.ok [], u) := by
    rw [Storage.flushValues, exec_bind, Storage.exec_onStore]
    exact hu
  refine ⟨u, ?_, hsynced', hroot'.trans hroot, fun c hc => ?_⟩
  · rw [Storage.flushing, exec_bind, ht]
    dsimp only
    rw [exec_bind, hvalues]
    rfl
  · obtain ⟨hmem, hout⟩ := hdirty c hc
    exact hout hmem

theorem flush (h : Synced N r values held s) (hl : InLimit r values) :
    ∃ t, exec Storage.flush s = (.ok (), t) ∧ Synced N r values held t ∧ Clean values t := by
  obtain ⟨t, ht, hsynced, hclean⟩ := h.flushing hl
  refine ⟨t, ?_, hsynced, hclean⟩
  rw [Storage.flush, exec_bind, ht]
  rfl

theorem flushQuietly (h : Synced N r values held s) (hl : InLimit r values) :
    ∃ t, exec Storage.flushQuietly s = (.ok (), t) ∧ Synced N r values held t ∧
      Clean values t := by
  obtain ⟨t, ht, hsynced, hclean⟩ := h.flushing hl
  refine ⟨t, ?_, hsynced, hclean⟩
  rw [Storage.flushQuietly, exec_bind, ht]
  rfl

theorem close (h : Synced N r values held s) (hl : InLimit r values) :
    ∃ t, exec Storage.close s = (.ok (), t) ∧ Synced N r values held t ∧ Clean values t := by
  have hquiet : Synced N r values held { s with store := s.store.stopTimers } := h.quiet
  rw [Storage.close, exec_bind, Storage.exec_onStore]
  exact hquiet.flush hl

theorem writing (hl : InLimit r values) : KeepsWriting (Synced N r values) where
  timers _ _ _ _ _ h := h.quiet
  dirtyRoot _ _ _ _ := trivial
  dirtyChats _ _ _ _ _ := trivial
  save _ _ s h := by
    obtain ⟨t, ht, hsynced, -⟩ := h.save hl
    rw [ht]
    exact hsynced
  saveValues chat _ _ s h := by
    obtain ⟨t, ht, hsynced, -⟩ := h.saveValues hl chat
    rw [ht]
    exact hsynced

/-! ## Changes in memory -/

/-- The values of a chat change, and the chat is dirty. -/
theorem setDirty (h : Synced N r values held s) (hc : N.used chat) {vs : ChatValues}
    (hvs : (Json.keys vs).Nodup) (valuesTimer : Option Nat) :
    Synced N r (Json.insert values chat vs) held
      { s with store :=
        { (s.store.setValues chat vs).markDirty chat with valuesTimer := valuesTimer } } := by
  have hdirty (c : String) (hd : c ∉ ((s.store.setValues chat vs).markDirty chat).dirty) :
      c ≠ chat ∧ c ∉ s.store.dirty := by
    unfold Store.markDirty Store.setValues at hd
    dsimp only at hd
    split at hd
    · next hin =>
      refine ⟨?_, hd⟩
      rintro rfl
      exact hd (List.contains_iff_mem.mp hin)
    · rw [List.mem_append, List.mem_singleton, not_or] at hd
      exact ⟨hd.2, hd.1⟩
  have hlook (c : String) (hne : c ≠ chat) :
      textOf? (Json.insert values chat vs) c = textOf? values c := by
    unfold textOf?
    rw [Json.find?_insert, if_neg (Ne.symm hne)]
  exact
    { h with
      chats := by
        change Json.insert s.store.values chat vs = _
        rw [h.chats]
      contents :=
        { sound := h.contents.sound
          used := fun c hmem => (Json.mem_keys_insert.mp hmem).elim (fun e => e ▸ hc)
            (h.contents.used c)
          distinct := Json.nodup_keys_insert h.contents.distinct chat vs
          once := fun c hmem => (Json.mem_insert hmem).elim (fun e => e ▸ hvs) (h.contents.once c) }
      written := fun c hcu hclean => by
        have hne : c ≠ chat := hclean.elim (fun hd => (hdirty c hd).1)
          fun hout e => hout (Json.mem_keys_insert.mpr (Or.inl e))
        rw [hlook c hne]
        exact h.written c hcu (hclean.imp (fun hd => (hdirty c hd).2)
          fun hout hmem => hout (Json.mem_keys_insert.mpr (Or.inr hmem))) }

theorem saveValuesSoon (h : Synced N r values held s) (chat : String) :
    Synced N r values held (exec (Storage.saveValuesSoon chat) s).2 := by
  have hdirty (c : String) (hd : c ∉ (s.store.markDirty chat).dirty) : c ∉ s.store.dirty := by
    unfold Store.markDirty at hd
    dsimp only at hd
    split at hd
    · exact hd
    · exact fun hmem => hd (List.mem_append_left _ hmem)
  exact { h with written := fun c hcu hclean => h.written c hcu (hclean.imp (hdirty c) id) }

theorem saveSoon (h : Synced N r values held s) :
    Synced N r values held (exec Storage.saveSoon s).2 := { h with rootWritten := nofun }

/-! ## Loading -/

theorem load (h : Synced N r values held s) : ended Storage.load s = (.ok r, s) :=
  Storage.ended_load_some h.inMemory

/-- The root is changed, and is dirty. -/
theorem changeRoot (h : Synced N r values held s) (f : Root → Root)
    (hf : Contents N (f r) values) :
    ∃ t, ended (Storage.changeRoot f) s = (.ok (), t) ∧ Synced N (f r) values held t := by
  unfold Storage.changeRoot
  rw [ended_bind_ok h.load]
  refine ⟨_, rfl, ?_⟩
  exact { h with
    inMemory := by
      change some (f (s.store.root.getD r)) = _
      rw [h.inMemory]
      rfl
    contents := hf
    rootWritten := nofun }

theorem usable (h : Synced N r values held s) :
    s.store.usable? chat = Json.find? values chat := by
  unfold Store.usable?
  rw [h.not_degraded chat, if_neg (by decide), h.cached_iff]

/-- A chat that was not loaded has no document, and is empty. -/
theorem loadValues (h : Synced N r values [] s) (hc : N.used chat) :
    ∃ values' t, ended (Storage.loadValues chat) s = (.ok (shownIn values chat), t) ∧
      Synced N r values' [] t ∧ Json.find? values' chat = some (shownIn values chat) ∧
      (Defined r values → Defined r values') := by
  cases hfind : Json.find? values chat with
  | some vs =>
    refine ⟨values, s, ?_, h, ?_, id⟩
    · rw [Storage.ended_loadValues_usable (h.usable.trans hfind), shownIn, hfind]
      rfl
    · rw [shownIn, hfind]
      rfl
  | none =>
    have hout := Json.find?_eq_none.mp hfind
    have hshown : shownIn values chat = [] := by
      rw [shownIn, hfind]
      rfl
    have husable := h.usable.trans hfind
    have hread : (s.shelf.read (Store.valuesName s.store.valuesStart chat)).1 = .ok none := by
      unfold Shelf.read
      rw [h.accepts, h.valuesStart, h.written chat hc (Or.inr hout), textOf?_of_not_mem hout]
      rfl
    let u : Storage :=
      { s with
        store := { s.store with held := [(.chat s.store.epoch chat, 0)] }
        shelf := (s.shelf.read (Store.valuesName s.store.valuesStart chat)).2 }
    have htake : exec (Storage.takeChat chat r (.ok none)) u =
        (.ok [], { u with store :=
          { u.store.setValues chat [] with degraded := u.store.degraded.filter (· != chat) } }) :=
      Storage.exec_takeChat rfl rfl nofun
    rw [← hread] at htake
    rw [hshown]
    refine ⟨Json.insert values chat [], _,
      Storage.ended_loadValues husable h.load h.lines husable htake rfl, ?_, ?_, ?_⟩
    · exact
        { h with
          chats := by
            change Json.insert s.store.values chat [] = _
            rw [h.chats]
          readable := by
            change s.store.degraded.filter _ = []
            rw [h.readable]
            rfl
          lines := rfl
          contents :=
            { sound := h.contents.sound
              used := fun c hmem => (Json.mem_keys_insert.mp hmem).elim (fun e => e ▸ hc)
                (h.contents.used c)
              distinct := Json.nodup_keys_insert h.contents.distinct chat []
              once := fun c hmem => (Json.mem_insert hmem).elim (fun e => e ▸ List.nodup_nil)
                (h.contents.once c) }
          written := fun c hcu hclean => by
            by_cases hne : c = chat
            · subst hne
              rw [textOf?, Json.find?_insert, if_pos rfl]
              exact (h.written c hc (Or.inr hout)).trans (textOf?_of_not_mem hout)
            · rw [textOf?, Json.find?_insert, if_neg (Ne.symm hne)]
              exact h.written c hcu (hclean.imp id fun hn hmem =>
                hn (Json.mem_keys_insert.mpr (Or.inr hmem))) }
    · rw [Json.find?_insert, if_pos rfl]
    · intro hd c hmem id hid
      rcases Json.mem_insert hmem with rfl | hmem
      · cases hid
      · exact hd c hmem id hid

/-- A value is set for a variable that has a definition. -/
theorem setValue (h : Synced N r values [] s) (hd : Defined r values) (hc : N.used chat)
    {id : String} (hid : id ∈ Json.keys r.definitions) (v : Value) :
    ∃ values' t, ended (Storage.setValue id chat v) s = (.ok (), t) ∧
      Synced N r values' [] t ∧ Defined r values' := by
  obtain ⟨values', t, hload, hsynced, hfind, hdefined⟩ := h.loadValues hc
  have hcheck {r : Root} {values : List (String × ChatValues)} {s : Storage}
      (h : Synced N r values [] s) :
      ended (.ofAction (Storage.checkWritable chat)) s = (.ok (), s) := by
    rw [ended_ofAction, Storage.exec_checkWritable, h.not_degraded chat]
    rfl
  have hmem := Json.mem_of_find? hfind
  have hvs := Json.nodup_keys_insert (hsynced.contents.once _ hmem) id v
  refine ⟨_, _, ?_, hsynced.setDirty hc hvs (some (t.clock.elapsed + t.store.debounce)), ?_⟩
  · unfold Storage.setValue
    refine (ended_bind_ok (hcheck h) _).trans ?_
    refine (ended_bind_ok hload _).trans ?_
    refine (ended_bind_ok (hcheck hsynced) _).trans ?_
    rfl
  · intro c hc id' hid'
    rcases Json.mem_insert hc with rfl | hc
    · rcases Json.mem_keys_insert.mp hid' with rfl | hold
      · exact hid
      · exact hdefined hd _ hmem id' hold
    · exact hdefined hd c hc id' hid'

/-- The values of a variable are removed from chats; the other values stay. -/
theorem removeFromChats (id : String) (l : List (String × ChatValues)) :
    ∀ {values s}, Synced N r values held s → (∀ c ∈ l, Json.find? values c.1 = some c.2) →
      (Json.keys l).Nodup →
      ∃ n values' t, exec (Storage.removeFromChats id l) s = (.ok n, t) ∧
        Synced N r values' held t ∧ ∀ c vs', Json.find? values' c = some vs' →
          ∃ vs, Json.find? values c = some vs ∧ Json.keys vs' ⊆ Json.keys vs ∧
            (c ∈ Json.keys l → id ∉ Json.keys vs') := by
  induction l with
  | nil =>
    intro values s h _ _
    exact ⟨0, values, s, rfl, h, fun c vs hc => ⟨vs, hc, fun _ hx => hx, nofun⟩⟩
  | cons c l ih =>
    intro values s h hl hnodup
    rw [Json.keys_cons, List.nodup_cons] at hnodup
    have hc := hl c List.mem_cons_self
    have hl' := fun d hd => hl d (List.mem_cons_of_mem c hd)
    unfold Storage.removeFromChats
    split
    · have honce := h.contents.once c (Json.mem_of_find? hc)
      have hset := h.setDirty (h.contents.used c.1 (Json.mem_keys_of_find? hc))
        (Json.nodup_keys_filter honce fun v => v.1 != id)
        (some (s.clock.elapsed + s.store.debounce))
      have hrest (d : String × ChatValues) (hd : d ∈ l) :
          Json.find? (Json.insert values c.1 (c.2.filter fun v => v.1 != id)) d.1 = some d.2 := by
        rw [Json.find?_insert, if_neg, hl' d hd]
        rintro he
        exact hnodup.1 (he ▸ List.mem_map_of_mem hd)
      obtain ⟨n, values', t, ht, hsynced, hkeys⟩ := ih hset hrest hnodup.2
      refine ⟨n + 1, values', t, ?_, hsynced, fun d vs' hd => ?_⟩
      · refine (exec_bind_ok (Storage.exec_onStore _ s) _).trans ?_
        refine (exec_bind_ok (exec_modify _ _) _).trans ?_
        exact exec_bind_ok ht _
      · obtain ⟨vs, hvs, hsub, hout⟩ := hkeys d vs' hd
        rw [Json.find?_insert] at hvs
        split at hvs
        · next he =>
          subst he
          obtain rfl := Option.some.inj hvs
          refine ⟨c.2, hc, fun x hx => ?_, fun _ hx => ?_⟩
          · exact (List.filter_sublist.map _).subset (hsub hx)
          · obtain ⟨v, hv, hv'⟩ := List.mem_map.mp (hsub hx)
            exact absurd hv' (bne_iff_ne.mp (List.mem_filter.mp hv).2)
        · next hne =>
          refine ⟨vs, hvs, hsub, fun hmem => ?_⟩
          rw [Json.keys_cons, List.mem_cons] at hmem
          exact hout (hmem.resolve_left (Ne.symm hne))
    · next hnone =>
      obtain ⟨n, values', t, ht, hsynced, hkeys⟩ := ih h hl' hnodup.2
      refine ⟨n, values', t, ht, hsynced, fun d vs' hd => ?_⟩
      obtain ⟨vs, hvs, hsub, hout⟩ := hkeys d vs' hd
      refine ⟨vs, hvs, hsub, fun hmem => ?_⟩
      rw [Json.keys_cons, List.mem_cons] at hmem
      by_cases he : d = c.1
      · subst he
        rw [hc] at hvs
        obtain rfl := Option.some.inj hvs
        rw [Json.find?_isSome] at hnone
        exact fun hx => hnone (hsub hx)
      · exact hout (hmem.resolve_left he)

/-- A variable that is removed has no value any more, and no other variable gets one. -/
theorem removeValues (h : Synced N r values held s) (id : String) :
    ∃ n values' t, exec (Storage.removeValues id) s = (.ok n, t) ∧
      Synced N r values' held t ∧ ∀ c ∈ values', id ∉ Json.keys c.2 ∧
        ∃ vs, (c.1, vs) ∈ values ∧ Json.keys c.2 ⊆ Json.keys vs := by
  have hall : ∀ c ∈ values, Json.find? values c.1 = some c.2 := fun c hc =>
    Json.find?_of_mem h.contents.distinct hc
  have hquiet : Synced N r values held { s with store := { s.store with
      removed := if s.store.removed.contains id then s.store.removed
        else s.store.removed ++ [id] } } := h.quiet
  obtain ⟨n, values', t, ht, hsynced, hkeys⟩ :=
    removeFromChats id values hquiet hall h.contents.distinct
  refine ⟨n, values', t, ?_, hsynced, fun c hc => ?_⟩
  · rw [← ht, Storage.removeValues, exec_bind, Storage.exec_onStore]
    dsimp only
    rw [exec_bind, Storage.exec_store?]
    dsimp only
    rw [h.chats]
  · obtain ⟨vs, hvs, hsub, hout⟩ :=
      hkeys c.1 c.2 (Json.find?_of_mem hsynced.contents.distinct hc)
    exact ⟨hout (Json.mem_keys_of_find? hvs), vs, Json.mem_of_find? hvs, hsub⟩

/-! ## Opening a store anew -/

/-- The root that was written is read. -/
theorem reload {u : Storage} (h : Synced N r values held s) (hl : InLimit r values)
    (hclean : Clean values s) (hu : New N u)
    (hdocuments : u.shelf.find? N.rootName = s.shelf.find? N.rootName) :
    ended Storage.load u = (.ok r, { u with
      store := { u.store with root := some r }
      shelf := (u.shelf.read N.rootName).2 }) := by
  have hread : (u.shelf.read u.store.rootName).1 = .ok (some r.text) := by
    unfold Shelf.read
    rw [hu.accepts, hu.rootName, hdocuments, h.rootWritten hclean.1]
    rfl
  let v : Storage :=
    { u with
      store := { u.store with held := [(.root u.store.epoch, 0)] }
      shelf := (u.shelf.read u.store.rootName).2 }
  have htake : exec (Storage.takeRoot (.ok (some r.text))) v =
      (.ok r, { v with store := { v.store with root := some r } }) := by
    unfold Storage.takeRoot
    dsimp only
    rw [exec_bind, Storage.exec_context]
    dsimp only
    rw [ofText_text h.contents.sound hl.root]
    rfl
  rw [← hread] at htake
  refine (Storage.ended_load hu.root hu.lines htake rfl).trans ?_
  rw [← hu.rootName, ← hu.lines]

/-- A root in memory that is to be written, with the values of chats that are to be written. -/
theorem ofNew (h : New N s) {dirty : List String} {shelf : Shelf}
    (hcontents : Contents N r values) (haccepts : ∀ a, shelf.refuses a = false)
    (hmissing : ∀ c, N.used c → shelf.find? (Store.valuesName N.valuesStart c) = none)
    (hdirty : ∀ c ∈ Json.keys values, c ∈ dirty) :
    Synced N r values held { s with
      store := { s.store with
        root := some r, values := values, rootDirty := true, dirty := dirty, held := held }
      shelf := shelf } where
  rootName := h.rootName
  valuesStart := h.valuesStart
  inMemory := rfl
  chats := rfl
  unmarked := h.unmarked
  readable := h.readable
  lines := rfl
  accepts := haccepts
  contents := hcontents
  rootWritten := nofun
  written c hc hclean := by
    have hout : c ∉ Json.keys values := hclean.elim (fun hd hmem => hd (hdirty c hmem)) id
    rw [textOf?_of_not_mem hout]
    exact hmissing c hc

/-- Another line for the locks. -/
theorem relined (h : Synced N r values held s) (held' : List (Lock × Nat)) :
    Synced N r values held' { s with store := { s.store with held := held' } } :=
  { h with lines := rfl }

theorem sound_standard : Root.standard.Sound where
  version := rfl
  suiteKeys := List.nodup_nil
  suites := nofun
  definitionKeys := List.nodup_nil
  settings := ⟨⟨List.nodup_nil, trivial⟩, List.nodup_nil, nofun⟩

/-- A store that is opened where nothing is creates the root. -/
theorem create (h : New N s) (hempty : ∀ name, s.shelf.find? name = none) :
    ∃ t, ended Storage.load s = (.ok .standard, t) ∧ Synced N .standard [] [] t := by
  have hread : (s.shelf.read s.store.rootName).1 = .ok none := by
    unfold Shelf.read
    rw [h.accepts, hempty]
    rfl
  have hcontents : Contents N .standard s.store.values := by
    rw [h.values]
    exact ⟨sound_standard, nofun, List.nodup_nil, nofun⟩
  have hlimit : InLimit .standard s.store.values := by
    rw [h.values]
    exact ⟨by decide, nofun⟩
  have hdirty : ∀ c ∈ Json.keys s.store.values, c ∈ s.store.dirty := by
    rw [h.values]
    nofun
  let v : Storage :=
    { s with
      store := { s.store with held := [(.root s.store.epoch, 0)] }
      shelf := (s.shelf.read s.store.rootName).2 }
  have hstart : Synced N .standard s.store.values [(.root s.store.epoch, 0)]
      { v with store := { v.store with root := some .standard, rootDirty := true } } :=
    ofNew h hcontents h.accepts (fun c _ => hempty _) hdirty
  obtain ⟨t, ht, hsynced, -⟩ := hstart.flushQuietly hlimit
  have htake : exec (Storage.takeRoot (.ok none)) v = (.ok .standard, t) := by
    refine (exec_bind_ok (Storage.exec_onStore _ v) _).trans ?_
    refine (exec_bind_ok ht _).trans ?_
    change (Except.ok (t.store.root.getD .standard), t) = _
    rw [hsynced.inMemory]
    rfl
  rw [← hread] at htake
  refine ⟨_, Storage.ended_load h.root h.lines htake hsynced.lines, ?_⟩
  have hend := hsynced.relined []
  rw [h.values] at hend
  exact hend

/-- A store that is opened on an older root takes over all it holds. -/
theorem migrate (h : New N s) {text : String} {chats : List (String × ChatValues)}
    (hroot : s.shelf.find? N.rootName = some text)
    (hothers : ∀ name, name ≠ N.rootName → s.shelf.find? name = none)
    (hread : Storage.RootReading.ofText ⟨s.clock.now, false⟩ text = .root r (some chats))
    (hused : ∀ c ∈ Json.keys chats, N.used c) (hl : InLimit r chats) :
    ∃ t, ended Storage.load s = (.ok r, t) ∧ Synced N r chats [] t ∧ Defined r chats := by
  have hmigrated := migrated_of_ofText hread
  have hanswer : (s.shelf.read s.store.rootName).1 = .ok (some text) := by
    unfold Shelf.read
    rw [h.accepts, h.rootName, hroot]
    rfl
  let v : Storage :=
    { s with
      store := { s.store with held := [(.root s.store.epoch, 0)] }
      shelf := (s.shelf.read s.store.rootName).2 }
  have hcontents : Contents N r chats :=
    ⟨hmigrated.sound, hused, hmigrated.distinct, fun c hc => (hmigrated.values c hc).keys⟩
  obtain ⟨dirty, hdirty, htake⟩ :=
    Storage.exec_takeRoot_moved (s := v) hread h.values hmigrated.distinct
  have hstart : Synced N r chats [(.root s.store.epoch, 0)] { v with store :=
      { v.store with root := some r, values := chats, rootDirty := true, dirty := dirty } } :=
    ofNew h hcontents h.accepts (fun c hc => hothers _ (N.apart c hc)) hdirty
  obtain ⟨t, ht, hsynced, -⟩ := hstart.flushQuietly hl
  have hend : exec (Storage.takeRoot (.ok (some text))) v = (.ok r, t) := by
    rw [htake, exec_bind_ok ht]
    change (Except.ok (t.store.root.getD r), t) = _
    rw [hsynced.inMemory]
    rfl
  rw [← hanswer] at hend
  refine ⟨_, Storage.ended_load h.root h.lines hend hsynced.lines, hsynced.relined [], ?_⟩
  exact fun c hc id hid => (hmigrated.values c hc).defined id hid

end Synced

end TagLedger
