import TagLedger.Proofs.StoredTexts
import TagLedger.Store.Timer

/-!
# What is written

What the actions that write documents do to the store and the shelf, case by case: nothing without a
document in memory, a refusal if the document could not be read, and else one attempt, after which
the document is dirty exactly if the shelf refused it.

    exec save s = s.attemptRoot r          if the root `r` may be written      (exec_save_root)
    exec (saveValues c) s = s.attemptChat c vs                                 (exec_saveValues_chat)
-/

namespace TagLedger

variable {σ α β : Type}

/-! ## Running actions -/

/-- What an action gives and what it leaves behind. -/
def exec (x : Action σ α) (s : σ) : Except Failure α × σ := x.run.run s

theorem exec_pure (a : α) (s : σ) : exec (pure a : Action σ α) s = (.ok a, s) := rfl

theorem exec_throw (e : Failure) (s : σ) : exec (throw e : Action σ α) s = (.error e, s) := rfl

theorem exec_get (s : σ) : exec (get : Action σ σ) s = (.ok s, s) := rfl

theorem exec_modify (f : σ → σ) (s : σ) : exec (modify f : Action σ Unit) s = (.ok (), f s) := rfl

theorem exec_bind (x : Action σ α) (f : α → Action σ β) (s : σ) :
    exec (x >>= f) s = match exec x s with
      | (.ok a, t) => exec (f a) t
      | (.error e, t) => (.error e, t) := by
  change (match exec x s with | (r, t) => ExceptT.bindCont f r t) = _
  rcases exec x s with ⟨r, t⟩
  cases r <;> rfl

theorem exec_bind_ok {x : Action σ α} {s t : σ} {a : α} (h : exec x s = (.ok a, t))
    (f : α → Action σ β) : exec (x >>= f) s = exec (f a) t := by
  rw [exec_bind, h]

theorem exec_seqRight (x : Action σ α) (y : Action σ β) (s : σ) :
    exec (x *> y) s = match exec x s with
      | (.ok _, t) => exec y t
      | (.error e, t) => (.error e, t) := by
  rw [seqRight_eq_bind, exec_bind]

theorem exec_tryCatch (x : Action σ α) (f : Failure → Action σ α) (s : σ) :
    exec (tryCatch x f) s = match exec x s with
      | (.ok a, t) => (.ok a, t)
      | (.error e, t) => exec (f e) t := by
  rcases hx : exec x s with ⟨r, t⟩
  unfold exec at hx ⊢
  rw [ExceptT.run_tryCatch, StateT.run_bind, hx]
  cases r <;> rfl

/-! ## Shelves -/

namespace Shelf

/-- The shelf after a text was put under a name. -/
def written (s : Shelf) (name text : String) : Shelf :=
  ⟨Json.insert s.documents name text, s.refuses, .write name :: s.journal,
    .write name text true :: s.calls, s.writes + 1⟩

/-- The shelf after the text under a name was taken away. -/
def dropped (s : Shelf) (name : String) : Shelf :=
  ⟨s.documents.filter (·.1 != name), s.refuses, .delete name :: s.journal,
    .delete name true :: s.calls, s.writes⟩

theorem write_refused {s : Shelf} {name : String} (h : s.refuses (.write name) = true)
    (text : String) :
    s.write name text = (.error (.cannotWrite name), s.keepCall (.write name text false)) := by
  unfold write
  rw [if_pos h]

theorem write_done {s : Shelf} {name : String} (h : s.refuses (.write name) = false)
    (text : String) : s.write name text = (.ok (), s.written name text) := by
  unfold write
  rw [if_neg (by rw [h]; decide)]
  rfl

theorem delete_refused {s : Shelf} {name : String} (h : s.refuses (.delete name) = true) :
    s.delete name = (.error (.cannotDelete name), s.keepCall (.delete name false)) := by
  unfold delete
  rw [if_pos h]

theorem delete_done {s : Shelf} {name : String} (h : s.refuses (.delete name) = false) :
    s.delete name = (.ok (), s.dropped name) := by
  unfold delete
  rw [if_neg (by rw [h]; decide)]
  rfl

end Shelf

/-- Marking a chat dirty makes no other chat dirty. -/
theorem Store.mem_markDirty {s : Store} {chat : String} (c : String) :
    c ∈ (s.markDirty chat).dirty ↔ c ∈ s.dirty ∨ c = chat := by
  unfold markDirty
  dsimp only
  split
  · next h =>
    rw [List.contains_iff_mem] at h
    exact ⟨Or.inl, fun hc => hc.elim id fun e => e ▸ h⟩
  · rw [List.mem_append, List.mem_singleton]

namespace Storage

theorem exec_onStore (f : Store → Store) (s : Storage) :
    exec (onStore f) s = (.ok (), { s with store := f s.store }) := rfl

theorem exec_store? (f : Store → α) (s : Storage) : exec (store? f) s = (.ok (f s.store), s) := rfl

theorem exec_now (s : Storage) : exec now s = (.ok s.clock.now, s) := rfl

theorem exec_context (s : Storage) : exec context s = (.ok ⟨s.clock.now, false⟩, s) := rfl

theorem exec_onShelf (f : Shelf → Except StorageFault α × Shelf) (s : Storage) :
    exec (onShelf f) s = (.ok (f s.shelf).1, { s with shelf := (f s.shelf).2 }) := rfl

theorem exec_pageText (j : Json) (s : Storage) :
    exec (pageText j) s =
      (if j.writable then .ok (Json.render .page j) else .error .badValue, s) := by
  unfold pageText Json.render?
  cases j.writable <;> rfl

/-! ## The root -/

/-- The root is written, or the shelf refuses it and it stays dirty. -/
def attemptRoot (s : Storage) (r : Root) : Except Failure Unit × Storage :=
  let name := s.store.rootName
  if s.shelf.refuses (.write name) then
    (.error (.storage (.cannotWrite name)),
      { s with
        store := { s.store with rootTimer := none, rootDirty := true }
        shelf := s.shelf.keepCall (.write name r.text false) })
  else
    (.ok (),
      { s with
        store := { s.store with rootTimer := none, rootDirty := false }
        shelf := s.shelf.written name r.text })

/-- What an attempt to write the root leaves. -/
theorem attemptRoot_cases (s : Storage) (r : Root) : ∃ rootDirty shelf, (s.attemptRoot r).2 =
    { s with
      store := { s.store with rootTimer := none, rootDirty := rootDirty }
      shelf := shelf } ∧ shelf.refuses = s.shelf.refuses ∧
    (rootDirty = true ∧ shelf.documents = s.shelf.documents ∨
      rootDirty = false ∧
        shelf.documents = Json.insert s.shelf.documents s.store.rootName r.text) := by
  unfold attemptRoot
  dsimp only
  split
  · exact ⟨_, _, rfl, rfl, Or.inl ⟨rfl, rfl⟩⟩
  · exact ⟨_, _, rfl, rfl, Or.inr ⟨rfl, rfl⟩⟩

/-- What it leaves of the texts of documents. -/
theorem attemptRoot_texts (s : Storage) (r : Root) : ∃ rootDirty shelf, (s.attemptRoot r).2 =
    { s with
      store := { s.store with rootTimer := none, rootDirty := rootDirty }
      shelf := shelf } ∧
    (∀ name, s.store.rootName ≠ name → shelf.find? name = s.shelf.find? name) ∧
    (rootDirty = true ∧ shelf.find? s.store.rootName = s.shelf.find? s.store.rootName ∨
      rootDirty = false ∧ shelf.find? s.store.rootName = some r.text) := by
  obtain ⟨rootDirty, shelf, hrun, -, hdocuments⟩ := s.attemptRoot_cases r
  refine ⟨rootDirty, shelf, hrun, fun name hne => ?_, ?_⟩
  all_goals unfold Shelf.find?
  · rcases hdocuments with ⟨-, h⟩ | ⟨-, h⟩
    · rw [h]
    · rw [h, Json.find?_insert, if_neg hne]
  · rcases hdocuments with ⟨hdirty, h⟩ | ⟨hclean, h⟩
    · exact .inl ⟨hdirty, by rw [h]⟩
    · exact .inr ⟨hclean, by rw [h, Json.find?_insert, if_pos rfl]⟩

theorem clean_of_attemptRoot {s t : Storage} {r : Root} (h : s.attemptRoot r = (.ok (), t)) :
    t.store.rootDirty = false := by
  unfold attemptRoot at h
  dsimp only at h
  split at h
  · cases (Prod.mk.inj h).1
  · obtain ⟨-, rfl⟩ := Prod.mk.inj h
    rfl

theorem exec_save_none {s : Storage} (h : s.store.root = none) : exec save s = (.ok (), s) := by
  unfold save
  rw [exec_bind, exec_get]
  simp only [h]
  rfl

theorem exec_save_degraded {s : Storage} {r : Root} (h : s.store.root = some r)
    (hd : s.store.rootDegraded = true) :
    exec save s = (.error (.storage (.rootUnreadable s.store.rootName)),
      { s with store := { s.store with rootTimer := none } }) := by
  unfold save
  rw [exec_bind, exec_get]
  simp only [h, hd, if_true, exec_bind, exec_onStore, exec_throw]

theorem exec_save_long {s : Storage} {r : Root} (h : s.store.root = some r)
    (hd : s.store.rootDegraded = false) (hw : r.document.writable = false) :
    exec save s = (.error .badValue, { s with store := { s.store with rootTimer := none } }) := by
  unfold save
  rw [exec_bind, exec_get]
  simp only [h, hd, exec_bind, exec_onStore, Bool.false_eq_true, if_false, exec_pageText, hw]

theorem exec_save_root {s : Storage} {r : Root} (h : s.store.root = some r)
    (hd : s.store.rootDegraded = false) (hw : r.document.writable) :
    exec save s = s.attemptRoot r := by
  unfold save attemptRoot
  rw [exec_bind, exec_get]
  simp only [h, hd, exec_bind, exec_onStore, Bool.false_eq_true, if_false, exec_pageText, hw,
    if_true, exec_onShelf]
  cases hr : s.shelf.refuses (.write s.store.rootName) with
  | true =>
    simp only [Shelf.write_refused hr, if_true]
    rfl
  | false =>
    simp only [Shelf.write_done hr, Bool.false_eq_true, if_false]
    rfl

/-! ## Values -/

/-- The values of a chat are written, or removed if there are none, or the shelf refuses that and
the chat stays dirty. -/
def attemptChat (s : Storage) (chat : String) (vs : ChatValues) : Except Failure Unit × Storage :=
  let name := Store.valuesName s.store.valuesStart chat
  let clean := { s.store with dirty := s.store.dirty.filter (· != chat) }
  if vs = [] then
    if s.shelf.refuses (.delete name) then
      (.error (.storage (.cannotDelete name)),
        { s with store := clean.markDirty chat, shelf := s.shelf.keepCall (.delete name false) })
    else (.ok (), { s with store := clean, shelf := s.shelf.dropped name })
  else if s.shelf.refuses (.write name) then
    (.error (.storage (.cannotWrite name)),
      { s with
        store := clean.markDirty chat
        shelf := s.shelf.keepCall (.write name (ChatValues.text chat vs) false) })
  else (.ok (), { s with store := clean, shelf := s.shelf.written name (ChatValues.text chat vs) })

/-- What an attempt to write the values of a chat leaves. -/
theorem attemptChat_cases (s : Storage) (chat : String) (vs : ChatValues) : ∃ dirty shelf,
    (s.attemptChat chat vs).2 =
      { s with store := { s.store with dirty := dirty }, shelf := shelf } ∧
    shelf.refuses = s.shelf.refuses ∧ (∀ c, c ≠ chat → (c ∈ dirty ↔ c ∈ s.store.dirty)) ∧
    (chat ∈ dirty ∧ shelf.documents = s.shelf.documents ∨
      chat ∉ dirty ∧ vs = [] ∧ shelf.documents =
        s.shelf.documents.filter (·.1 != Store.valuesName s.store.valuesStart chat) ∨
      chat ∉ dirty ∧ vs ≠ [] ∧ shelf.documents = Json.insert s.shelf.documents
        (Store.valuesName s.store.valuesStart chat) (ChatValues.text chat vs)) := by
  have hdirty (d : Store) : chat ∈ (d.markDirty chat).dirty :=
    (Store.mem_markDirty chat).mpr (Or.inr rfl)
  have hclean : chat ∉ s.store.dirty.filter (· != chat) := fun hmem =>
    bne_iff_ne.mp (List.mem_filter.mp hmem).2 rfl
  have hothers (c : String) (hc : c ≠ chat) :
      c ∈ s.store.dirty.filter (· != chat) ↔ c ∈ s.store.dirty :=
    ⟨fun h => (List.mem_filter.mp h).1, fun h => List.mem_filter.mpr ⟨h, bne_iff_ne.mpr hc⟩⟩
  have hmarked (c : String) (hc : c ≠ chat) :
      c ∈ (Store.markDirty { s.store with dirty := s.store.dirty.filter (· != chat) } chat).dirty ↔
        c ∈ s.store.dirty :=
    (Store.mem_markDirty c).trans ((or_iff_left hc).trans (hothers c hc))
  unfold attemptChat
  dsimp only
  split
  · next hempty =>
    split
    · exact ⟨_, _, rfl, rfl, hmarked, Or.inl ⟨hdirty _, rfl⟩⟩
    · exact ⟨_, _, rfl, rfl, hothers, Or.inr (Or.inl ⟨hclean, hempty, rfl⟩)⟩
  · next hfull =>
    split
    · exact ⟨_, _, rfl, rfl, hmarked, Or.inl ⟨hdirty _, rfl⟩⟩
    · exact ⟨_, _, rfl, rfl, hothers, Or.inr (Or.inr ⟨hclean, hfull, rfl⟩)⟩

/-- What it leaves of the texts of documents. -/
theorem attemptChat_texts (s : Storage) (chat : String) (vs : ChatValues) : ∃ dirty shelf,
    (s.attemptChat chat vs).2 =
      { s with store := { s.store with dirty := dirty }, shelf := shelf } ∧
    (∀ c, c ≠ chat → (c ∈ dirty ↔ c ∈ s.store.dirty)) ∧
    (∀ name, Store.valuesName s.store.valuesStart chat ≠ name →
      shelf.find? name = s.shelf.find? name) ∧
    (chat ∈ dirty ∧ shelf.find? (Store.valuesName s.store.valuesStart chat) =
        s.shelf.find? (Store.valuesName s.store.valuesStart chat) ∨
      chat ∉ dirty ∧ shelf.find? (Store.valuesName s.store.valuesStart chat) =
        if vs = [] then none else some (ChatValues.text chat vs)) := by
  obtain ⟨dirty, shelf, hrun, -, hothers, hdocuments⟩ := s.attemptChat_cases chat vs
  refine ⟨dirty, shelf, hrun, hothers, fun name hne => ?_, ?_⟩
  all_goals unfold Shelf.find?
  · rcases hdocuments with ⟨-, h⟩ | ⟨-, -, h⟩ | ⟨-, -, h⟩
    · rw [h]
    · rw [h, Json.find?_filter fun x => x != Store.valuesName s.store.valuesStart chat,
        if_pos (bne_iff_ne.mpr hne.symm)]
    · rw [h, Json.find?_insert, if_neg hne]
  · rcases hdocuments with ⟨hdirty, h⟩ | ⟨hclean, hempty, h⟩ | ⟨hclean, hfull, h⟩
    · exact .inl ⟨hdirty, by rw [h]⟩
    · refine .inr ⟨hclean, ?_⟩
      rw [h, Json.find?_filter fun x => x != Store.valuesName s.store.valuesStart chat,
        if_neg (by rw [bne_self_eq_false]; decide), if_pos hempty]
    · refine .inr ⟨hclean, ?_⟩
      rw [h, Json.find?_insert, if_pos rfl, if_neg hfull]

theorem clean_of_attemptChat {s t : Storage} {chat : String} {vs : ChatValues}
    (h : s.attemptChat chat vs = (.ok (), t)) : chat ∉ t.store.dirty := by
  unfold attemptChat at h
  dsimp only at h
  split at h
  all_goals
    split at h
    · cases (Prod.mk.inj h).1
    · obtain ⟨-, rfl⟩ := Prod.mk.inj h
      exact fun hmem => bne_iff_ne.mp (List.mem_filter.mp hmem).2 rfl

theorem exec_checkWritable (chat : String) (s : Storage) :
    exec (checkWritable chat) s =
      (if s.store.isDegraded chat then .error (.storage (.chatUnreadable chat)) else .ok (), s) := by
  unfold checkWritable
  rw [exec_bind, exec_get]
  simp only
  split <;> rfl

theorem exec_saveValues_none {s : Storage} {chat : String} (h : s.store.cached? chat = none) :
    exec (saveValues chat) s = (.ok (), s) := by
  unfold saveValues
  rw [exec_bind, exec_get]
  simp only [h]
  rfl

theorem exec_saveValues_degraded {s : Storage} {chat : String} {vs : ChatValues}
    (h : s.store.cached? chat = some vs) (hd : s.store.isDegraded chat = true) :
    exec (saveValues chat) s = (.error (.storage (.chatUnreadable chat)), s) := by
  unfold saveValues
  rw [exec_bind, exec_get]
  simp only [h, exec_bind, exec_checkWritable, hd, if_true]

theorem exec_saveValues_long {s : Storage} {chat : String} {vs : ChatValues}
    (h : s.store.cached? chat = some vs) (hd : s.store.isDegraded chat = false) (hne : vs ≠ [])
    (hw : (ChatValues.document chat vs).writable = false) :
    exec (saveValues chat) s = (.error .badValue,
      { s with store := { s.store with dirty := s.store.dirty.filter (· != chat) } }) := by
  have hempty : vs.isEmpty = false := List.isEmpty_eq_false_iff.mpr hne
  unfold saveValues
  rw [exec_bind, exec_get]
  simp only [h, exec_bind, exec_checkWritable, hd, exec_onStore, Bool.false_eq_true, if_false,
    hempty, exec_pageText, hw]

theorem exec_saveValues_chat {s : Storage} {chat : String} {vs : ChatValues}
    (h : s.store.cached? chat = some vs) (hd : s.store.isDegraded chat = false)
    (hw : vs = [] ∨ (ChatValues.document chat vs).writable) :
    exec (saveValues chat) s = s.attemptChat chat vs := by
  unfold saveValues attemptChat
  rw [exec_bind, exec_get]
  by_cases hempty : vs = []
  · subst hempty
    simp only [h, exec_bind, exec_checkWritable, hd, exec_onStore, Bool.false_eq_true, if_false,
      List.isEmpty_nil, if_true, exec_onShelf]
    cases hr : s.shelf.refuses (.delete (Store.valuesName s.store.valuesStart chat)) with
    | true =>
      simp only [Shelf.delete_refused hr, if_true]
      rfl
    | false =>
      simp only [Shelf.delete_done hr, Bool.false_eq_true, if_false]
      rfl
  · have hdoc := hw.resolve_left hempty
    have hempty' : vs.isEmpty = false := List.isEmpty_eq_false_iff.mpr hempty
    simp only [h, exec_bind, exec_checkWritable, hd, exec_onStore, Bool.false_eq_true, if_false,
      hempty, hempty', exec_pageText, hdoc, if_true, exec_onShelf]
    cases hr : s.shelf.refuses (.write (Store.valuesName s.store.valuesStart chat)) with
    | true =>
      simp only [Shelf.write_refused hr, if_true]
      rfl
    | false =>
      simp only [Shelf.write_done hr, Bool.false_eq_true, if_false]
      rfl

end Storage

end TagLedger
