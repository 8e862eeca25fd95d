import TagLedger.Proofs.Reading
import TagLedger.Proofs.Triples

/-!
# Operations that fail

An operation on variables or suites that reports that it was not done leaves everything as it was,
for all that can be seen: the root, the documents, and what each chat is served with. What may come
before the refusal only reads; what comes after the first change cannot fail. There is one
exception: a value that is left in memory of a chat that cannot be read is changed where it lies,
and then setting it is refused.

    x only reads, and f a is done or leaves all as it was  →  so is x >>= f     (Careful.after)
    the request failed, and edits no value that is left over  →  all looks the same
                                                                          (looks_same_of_failed)
-/

namespace TagLedger

variable {α β : Type} {r : Root} {s t : Storage} {id chat : String}

/-! ## What can be seen -/

/-- With the root `r` in memory, `t` shows what `s` shows. -/
structure Looks (r : Root) (s t : Storage) : Prop where
  root : t.store.root = some r
  rootDegraded : t.store.rootDegraded = s.store.rootDegraded
  removed : t.store.removed = s.store.removed
  valuesStart : t.store.valuesStart = s.store.valuesStart
  clock : t.clock = s.clock
  documents : t.shelf.documents = s.shelf.documents
  refuses : t.shelf.refuses = s.shelf.refuses
  serves : ∀ chat, t.serves r chat = s.serves r chat
  unusable : ∀ chat, t.store.usable? chat = none → s.store.usable? chat = none

/-- A chat that cannot be read is served with a value of the variable that is left in memory. -/
structure Storage.Leftover (s : Storage) (id chat : String) : Prop where
  unusable : s.store.usable? chat = none
  unreadable : Storage.rawOf? (s.shelf.read (Store.valuesName s.store.valuesStart chat)).1 = none
  inMemory : (s.store.value? id chat).isSome = true

/-- A value is either served from what was read, or not there. -/
def Storage.Editable (s : Storage) (id chat : String) : Prop :=
  (∃ vs, s.store.usable? chat = some vs) ∨
    s.store.isDegraded chat = true ∧ s.store.value? id chat = none

namespace Looks

theorem refl (h : s.store.root = some r) : Looks r s s :=
  ⟨h, rfl, rfl, rfl, rfl, rfl, rfl, fun _ => rfl, fun _ h => h⟩

theorem lined (h : Looks r s t) (held : List (Lock × Nat)) (granted : List Lock) :
    Looks r s (t.lined held granted) := { h with }

theorem answer (h : Looks r s t) (name : String) :
    (t.shelf.read name).1 = (s.shelf.read name).1 := by
  unfold Shelf.read Shelf.find?
  rw [h.refuses, h.documents]

/-- Everybody is answered as before, also by another shelf that answers as the one at hand. -/
theorem loadValues (h : Looks r s t) (hroot : s.store.root = some r) {shelf : Shelf}
    (hshelf : ∀ name, (shelf.read name).1 = (s.shelf.read name).1) (chat : String) :
    (ended (Storage.loadValues chat) { t with shelf := shelf }).1 =
      (ended (Storage.loadValues chat) { s with shelf := shelf }).1 := by
  have hsame {u : Storage} (hu : ∀ name, (u.shelf.read name).1 = (s.shelf.read name).1) :
      { u with shelf := shelf }.serves r chat = u.serves r chat :=
    Storage.serves_congr rfl rfl rfl (fun name => (hshelf name).trans (hu name).symm) fun _ => rfl
  rw [Storage.loadValues_answer (s := { t with shelf := shelf }) h.root,
    Storage.loadValues_answer (s := { s with shelf := shelf }) hroot, hsame h.answer,
    hsame fun _ => rfl, h.serves]

theorem loaded (h : Looks r s t) (chat : String) : Looks r s (t.loaded r chat).2 := by
  cases hu : t.store.usable? chat with
  | some vs =>
    rw [Storage.loaded_usable hu]
    exact h
  | none =>
    rw [Storage.loaded_unusable hu]
    have hserves := Storage.serves_looked hu r
    let name := Store.valuesName t.store.valuesStart chat
    have hother {c : String} (hc : chat ≠ c) :
        (t.looked r chat name).2.store.usable? c = t.store.usable? c :=
      Storage.usable?_looked_other hc name
    obtain ⟨values, degraded, dirty, timer, hframe⟩ := Storage.looked_frame t r chat name
    rw [hframe] at hserves hother ⊢
    refine { h with
      serves := fun c => (hserves c).trans (h.serves c)
      unusable := fun c hc => h.unusable c ?_ }
    by_cases he : chat = c
    · exact he ▸ hu
    · exact (hother he).symm.trans hc

/-- A chat that was loaded can be edited unless something is left over in it. -/
theorem editable (h : Looks r s t) (hover : ¬ s.Leftover id chat) :
    (t.loaded r chat).2.Editable id chat := by
  rcases Storage.loaded_cases t r chat with husable | ⟨hunusable, hraw, hd, hcached⟩
  · exact Or.inl ⟨_, husable⟩
  · have hunusable := h.unusable chat hunusable
    have hunread :
        Storage.rawOf? (s.shelf.read (Store.valuesName s.store.valuesStart chat)).1 = none := by
      rw [← h.valuesStart, ← h.answer]
      exact hraw
    refine Or.inr ⟨hd, ?_⟩
    unfold Store.value?
    rw [hcached, Storage.loaded_fst, h.serves]
    unfold Storage.serves
    rw [hunusable, hunread]
    by_contra hvalue
    refine hover ⟨hunusable, hunread, ?_⟩
    unfold Store.value?
    cases hc : s.store.cached? chat with
    | none =>
      rw [hc] at hvalue
      exact absurd rfl hvalue
    | some vs =>
      rw [hc] at hvalue
      exact Option.isSome_iff_ne_none.mpr hvalue

end Looks

/-! ## Reading first -/

/-- An answer that says that something was not done, or a fault that does. -/
def Failed (good : α → Bool) : Except Failure α → Prop
  | .ok a => good a = false
  | .error (.storage _) | .error (.invalid _) => True
  | .error _ => False

/-- Begun as `P` says, `x` is done, or all looks as in `s` afterwards. -/
def Careful (r : Root) (s : Storage) (P : Storage → Prop) (good : α → Bool)
    (x : Activity Storage α) : Prop :=
  ∀ t, P t → Failed good (ended x t).1 → Looks r s (ended x t).2

/-- Nothing that can be seen changes. -/
abbrev Reads (r : Root) (s : Storage) (x : Activity Storage α) : Prop :=
  Meets (Looks r s) (Looks r s) x fun _ => Looks r s

namespace Reads

theorem pure (a : α) : Reads r s (pure a : Activity Storage α) := fun _ h => h

theorem load : Reads r s Storage.load := .ok fun t h => ⟨r, t, Storage.ended_load_some h.root, h⟩

theorem suites : Reads r s Storage.suites := load.bind fun root => pure root.suites

theorem definitions : Reads r s Storage.definitions := load.bind fun root => pure root.definitions

theorem settings : Reads r s Storage.settings := load.bind fun root => pure root.settings

theorem context : Reads r s (.ofAction Storage.context) := .ok fun t h => ⟨_, t, rfl, h⟩

theorem newId (kind : String) (n : Nat) : Reads r s (.ofAction (Storage.newId kind n)) :=
  .ok fun _ h => ⟨_, _, rfl, { h with }⟩

theorem loadValues (chat : String) : Reads r s (Storage.loadValues chat) := .ok fun t h => by
  obtain ⟨held, granted, hrun⟩ := Storage.ended_loadValues_eq h.root chat
  exact ⟨_, _, hrun, (h.loaded chat).lined held granted⟩

theorem findSuite (id : String) : Reads r s (Suites.find? id) :=
  suites.bind fun l => pure (Json.find? l id)

theorem findVariable (id : String) : Reads r s (Variables.find? id) :=
  definitions.bind fun ds => pure (Json.find? ds id)

theorem findByName (name : String) : Reads r s (Variables.findByName? name) :=
  definitions.bind fun ds => pure (Variables.named? ds name)

theorem active : Reads r s Suites.active := by
  unfold Suites.active
  refine settings.bind fun x => ?_
  split
  · split
    · exact pure _
    · exact findSuite _
  · exact pure _

theorem valid (c : Schema.Checked α) : Reads r s (Suites.valid c) := by
  cases c with
  | valid a => exact pure a
  | invalid is => exact .throw _ fun _ h => h

end Reads

/-! ### Values that are to be edited -/

/-- A value that was asked for can be edited. -/
abbrev ForEdit (r : Root) (s : Storage) (id chat : String) (x : Activity Storage α) : Prop :=
  Meets (Looks r s) (Looks r s) x fun _ t => Looks r s t ∧ t.Editable id chat

namespace ForEdit

variable (hover : ¬ s.Leftover id chat)

include hover

theorem getValue : ForEdit r s id chat (Storage.getValue id chat) := by
  refine Meets.bind (Q := fun _ t => Looks r s t ∧ t.Editable id chat) (.ok fun t h => ?_)
    fun _ _ h => h
  obtain ⟨held, granted, hrun⟩ := Storage.ended_loadValues_eq h.root chat
  exact ⟨_, _, hrun, (h.loaded chat).lined held granted, h.editable hover⟩

theorem stack : ForEdit r s id chat (Variables.stack id chat) := by
  unfold Variables.stack
  refine (getValue hover).bind fun v => ?_
  split <;> exact fun _ h => h

theorem slot : ForEdit r s id chat (Variables.slot id chat) := by
  unfold Variables.slot
  refine (getValue hover).bind fun v => ?_
  split <;> exact fun _ h => h

end ForEdit

theorem Reads.stack (id chat : String) : Reads r s (Variables.stack id chat) := by
  unfold Variables.stack Storage.getValue
  refine ((loadValues chat).bind fun vs => pure (Json.find? vs id)).bind fun v => ?_
  split <;> exact pure _

theorem Reads.slot (id chat : String) : Reads r s (Variables.slot id chat) := by
  unfold Variables.slot Storage.getValue
  refine ((loadValues chat).bind fun vs => pure (Json.find? vs id)).bind fun v => ?_
  split <;> exact pure _

theorem Reads.shown (id chat : String) : Reads r s (Variables.shown id chat) := by
  unfold Variables.shown
  refine (slot id chat).bind fun x => ?_
  split
  · exact pure _
  · exact .throw _ fun _ h => h

theorem Reads.text (id chat : String) : Reads r s (Variables.text id chat) := by
  unfold Variables.text
  refine (findVariable id).bind fun d => ?_
  split
  · exact pure _
  split
  · exact (stack id chat).bind fun x => pure _
  · exact (slot id chat).bind fun x => pure _

theorem Reads.textByName (name chat : String) : Reads r s (Variables.textByName name chat) := by
  unfold Variables.textByName
  refine (findByName name).bind fun d => ?_
  split
  · exact pure _
  · exact text _ _

/-! ## Changes that cannot fail -/

/-- Some root is in memory. -/
def Loaded (s : Storage) : Prop := s.store.root.isSome = true

/-- With a root in memory, `x` is always done. -/
abbrev Sure (x : Activity Storage α) : Prop :=
  Meets (fun _ => False) Loaded x fun _ => Loaded

namespace Sure

theorem pure (a : α) : Sure (pure a : Activity Storage α) := fun _ h => h

theorem load : Sure Storage.load := .ok fun t h => by
  obtain ⟨root, hroot⟩ := Option.isSome_iff_exists.mp h
  exact ⟨root, t, Storage.ended_load_some hroot, h⟩

theorem settings : Sure Storage.settings := load.bind fun root => pure root.settings

theorem now : Sure (.ofAction Storage.now) := .ok fun t h => ⟨_, t, rfl, h⟩

theorem changeRoot (f : Root → Root) : Sure (Storage.changeRoot f) :=
  load.bind fun _ => .ok fun _ _ => ⟨(), _, rfl, rfl⟩

theorem setActive (id : Option String) : Sure (Suites.setActive id) :=
  settings.bind fun _ => changeRoot _

theorem setItems (id : String) (items : List Item) : Sure (Suites.setItems id items) :=
  (load.bind fun root => pure root.suites).bind fun _ => now.bind fun _ => changeRoot _

theorem removeSlots (id : String) : Sure (Suites.removeSlots id) := by
  unfold Suites.removeSlots
  refine (load.bind fun root => pure root.suites).bind fun l => .ite ?_ (pure _)
  exact now.bind fun _ => (changeRoot _).bind fun _ => pure _

theorem removeValues (id : String) : Sure (.ofAction (Storage.removeValues id)) := by
  have hchats (l : List (String × ChatValues)) : ∀ {t : Storage}, Loaded t → ∃ n u,
      exec (Storage.removeFromChats id l) t = (.ok n, u) ∧ Loaded u := by
    induction l with
    | nil => exact fun h => ⟨0, _, rfl, h⟩
    | cons c l ih =>
      intro t h
      unfold Storage.removeFromChats
      split
      · obtain ⟨n, u, hrun, hu⟩ := ih (t := { t with store :=
          (t.store.setValues c.1 (c.2.filter (·.1 != id))).soon c.1 t.clock.elapsed }) h
        refine ⟨n + 1, u, ?_, hu⟩
        refine (exec_bind_ok (Storage.exec_onStore _ t) _).trans ?_
        refine (exec_bind_ok (exec_modify _ _) _).trans ?_
        exact exec_bind_ok hrun _
      · exact ih h
  refine .ok fun t h => ?_
  obtain ⟨n, u, hrun, hu⟩ := hchats t.store.values (t := { t with store :=
    { t.store with removed := if t.store.removed.contains id then t.store.removed
        else t.store.removed ++ [id] } }) h
  exact ⟨n, u, hrun, hu⟩

end Sure

namespace Careful

variable {P : Storage → Prop} {good : α → Bool}

theorem ofReads {x : Activity Storage α} (h : Reads r s x) : Careful r s (Looks r s) good x :=
  fun t ht _ => Meets.iff_left.mp h t ht

theorem pure (a : α) : Careful r s (Looks r s) good (pure a : Activity Storage α) :=
  ofReads (.pure a)

/-- After something that changes nothing. -/
theorem after {x : Activity Storage β} {Q : β → Storage → Prop} {f : β → Activity Storage α}
    (hx : Meets (Looks r s) P x Q) (hf : ∀ a, Careful r s (Q a) good (f a)) :
    Careful r s P good (x >>= f) := fun t ht => by
  have hx := hx t ht
  rw [ended_bind]
  rcases hrun : ended x t with ⟨a, u⟩
  rw [hrun] at hx
  cases a with
  | ok a => exact hf a u hx
  | error e => exact fun _ => hx

theorem mono {P' : Storage → Prop} {x : Activity Storage α} (h : Careful r s P good x)
    (hp : ∀ t, P' t → P t) : Careful r s P' good x := fun t ht => h t (hp t ht)

theorem ite {c : Prop} [Decidable c] {x y : Activity Storage α} (hx : Careful r s P good x)
    (hy : Careful r s P good y) : Careful r s P good (if c then x else y) := by
  split
  · exact hx
  · exact hy

/-- What cannot fail, and says so. -/
theorem ofSure {x : Activity Storage α}
    (hx : Meets (fun _ => False) Loaded x fun a _ => good a = true) :
    Careful r s (Looks r s) good x := fun t ht hfailed => by
  have hx := hx t (by rw [Loaded, ht.root]; rfl)
  rcases hrun : ended x t with ⟨a, u⟩
  rw [hrun] at hx hfailed
  cases a with
  | ok a => exact absurd (hx.symm.trans hfailed) nofun
  | error e => exact hx.elim

/-- What cannot fail, and then an answer that says so. -/
theorem ofSureThen {x : Activity Storage β} (hx : Sure x) {a : α} (ha : good a = true) :
    Careful r s (Looks r s) good (x >>= fun _ => Pure.pure a) := ofSure (hx.bind fun _ _ _ => ha)

theorem afterNow {f : Int → Activity Storage α} (hf : ∀ now, Careful r s P good (f now)) :
    Careful r s P good (.ofAction Storage.now >>= f) := fun t ht => hf t.clock.now t ht

/-- A value that can be edited is set, or stays as it is if setting it is refused. -/
theorem edit (v : Value) {a : α} (ha : good a = true) :
    Careful r s (fun t => Looks r s t ∧ t.Editable id chat) good
      (Storage.editValue id chat v >>= fun _ => Pure.pure a) := fun t ht => by
  obtain ⟨ht, ⟨vs, hvs⟩ | ⟨hd, hnone⟩⟩ := ht
  · rw [ended_bind_ok (Storage.ended_editValue_usable hvs id v)]
    exact fun hfailed => absurd (ha.symm.trans hfailed) nofun
  · rw [ended_bind_error (Storage.ended_editValue_refused hd hnone v)]
    exact fun _ => ht

/-- Another answer is made of the answer, which is no better than it. -/
theorem thenPure {x : Activity Storage α} (h : Careful r s P good x) {good' : β → Bool} {f : α → β}
    (hf : ∀ a, good a = true → good' (f a) = true) :
    Careful r s P good' (x >>= fun a => Pure.pure (f a)) := fun t ht => by
  have hx := h t ht
  rw [ended_bind]
  rcases hrun : ended x t with ⟨a, u⟩
  rw [hrun] at hx
  cases a with
  | error e => cases e <;> exact hx
  | ok a =>
    refine fun hfailed => hx ?_
    by_contra hgood
    exact absurd ((hf a (Bool.not_eq_false _ ▸ hgood)).symm.trans hfailed) nofun

/-! ### Variables -/

theorem createVariable (name tag : Option String) (mode : Option Mode) :
    Careful r s (Looks r s) Except.isOk (Variables.create name tag mode) := by
  unfold Variables.create
  split
  · exact pure _
  · refine after Reads.definitions fun ds => ?_
    split
    · exact pure _
    split
    · exact pure _
    split
    · exact pure _
    · refine after (Reads.newId "var" 5) fun id => ?_
      refine afterNow fun now => ?_
      exact ofSureThen (Sure.changeRoot _) rfl

theorem rename (id : String) (name : Option String) :
    Careful r s (Looks r s) Except.isOk (Variables.rename id name) := by
  unfold Variables.rename
  refine after Reads.definitions fun ds => ?_
  split
  · exact pure _
  split
  · exact pure _
  · refine afterNow fun now => ?_
    exact ofSureThen (Sure.changeRoot _) rfl

theorem deleteVariable (withSlots : Bool) (id : String) :
    Careful r s (Looks r s) Except.isOk (Variables.delete withSlots id) := by
  unfold Variables.delete
  refine after Reads.definitions fun ds => ?_
  split
  · exact pure _
  · refine ofSure ((Sure.changeRoot _).bind fun _ => (Sure.removeValues id).bind fun _ => ?_)
    split
    · exact (Sure.removeSlots id).bind fun _ _ _ => rfl
    · exact fun _ _ => rfl

theorem addEntry (hover : ¬ s.Leftover id chat) (content floors : String) :
    Careful r s (Looks r s) (fun _ => true) (Variables.addEntry id chat content floors) := by
  unfold Variables.addEntry
  refine after (ForEdit.stack hover) fun x => ?_
  refine afterNow fun now => ?_
  exact edit _ rfl

theorem changeEntry (hover : ¬ s.Leftover id chat) (entry : Int) (f : Entry → Entry) :
    Careful r s (Looks r s) Except.isOk (Variables.changeEntry id chat entry f) := by
  unfold Variables.changeEntry
  refine after (ForEdit.stack hover) fun x => ?_
  split
  · exact (pure _).mono fun _ h => h.1
  · exact edit _ rfl

theorem deleteEntry (hover : ¬ s.Leftover id chat) (entry : Int) :
    Careful r s (Looks r s) Except.isOk (Variables.deleteEntry id chat entry) := by
  unfold Variables.deleteEntry
  refine after (ForEdit.stack hover) fun x => ?_
  split
  · exact (pure _).mono fun _ h => h.1
  · exact edit _ rfl

theorem reorderEntries (hover : ¬ s.Leftover id chat) (order : List Int) :
    Careful r s (Looks r s) Except.isOk (Variables.reorderEntries id chat order) := by
  unfold Variables.reorderEntries
  refine after (ForEdit.stack hover) fun x => ?_
  split
  · exact (pure _).mono fun _ h => h.1
  split
  · exact (pure _).mono fun _ h => h.1
  · exact edit _ rfl

theorem put (hover : ¬ s.Leftover id chat) (content floors : String) :
    Careful r s (Looks r s) (fun _ => true) (Variables.put id chat content floors) := by
  unfold Variables.put
  refine after (ForEdit.slot hover) fun x => ?_
  refine afterNow fun now => ?_
  exact edit _ rfl

theorem navigate (hover : ¬ s.Leftover id chat) (word : String) :
    Careful r s (Looks r s) Except.isOk (Variables.navigate id chat word) := by
  unfold Variables.navigate
  split
  · exact pure _
  · refine after (ForEdit.slot hover) fun x => ?_
    split
    · exact (pure _).mono fun _ h => h.1
    · exact edit _ rfl

theorem restore (hover : ¬ s.Leftover id chat) (version : Int) :
    Careful r s (Looks r s) Except.isOk (Variables.restore id chat version) := by
  unfold Variables.restore
  refine after (ForEdit.slot hover) fun x => ?_
  refine afterNow fun now => ?_
  split
  · exact (pure _).mono fun _ h => h.1
  · exact edit _ rfl

/-- Setting a value is refused before anything changes, or the chat can be used from then on. -/
theorem setsValue (id : String) (v : Value) :
    Meets (Looks r s) (Looks r s) (Storage.setValue id chat v) fun _ t =>
      (t.store.usable? chat).isSome = true := by
  have hcheck : Meets (Looks r s) (Looks r s) (.ofAction (Storage.checkWritable chat)) fun _ t =>
      Looks r s t ∧ t.store.isDegraded chat = false := fun t ht => by
    rw [ended_ofAction, Storage.exec_checkWritable]
    cases hd : t.store.isDegraded chat with
    | true => exact ht
    | false => exact ⟨ht, hd⟩
  refine (hcheck.mono (fun _ h => h) fun _ _ h => h.1).bind fun _ => ?_
  refine (Reads.loadValues chat).bind fun vs => hcheck.bind fun _ => ?_
  refine .ok fun t ht => ⟨(), t.stored chat (Json.insert vs id v), rfl, ?_⟩
  unfold Storage.stored
  rw [Store.usable?_soon ht.2]
  rfl

/-- Once a value was set in a chat, none is refused. -/
theorem setsAgain (id : String) (v : Value) :
    Meets (fun _ => False) (fun t => (t.store.usable? chat).isSome = true)
      (Storage.setValue id chat v) fun _ t => (t.store.usable? chat).isSome = true :=
  .ok fun t ht => by
    obtain ⟨vs, hvs⟩ := Option.isSome_iff_exists.mp ht
    refine ⟨(), _, Storage.ended_setValue_usable hvs id v, ?_⟩
    unfold Storage.stored
    rw [Store.usable?_soon (Store.not_degraded_of_usable hvs)]
    rfl

/-- The first value that is copied decides whether the chat can be written. -/
theorem copyInto (target : String) (floor : Option Int) (vs : List (String × Value)) :
    Careful r s (Looks r s) (fun _ => true) (Variables.copyInto target floor vs) := by
  have hrest (vs : List (String × Value)) :
      Careful r s (fun t => (t.store.usable? target).isSome = true) (fun _ => true)
        (Variables.copyInto target floor vs) := by
    induction vs with
    | nil => exact fun _ _ h => nomatch h
    | cons v vs ih =>
      unfold Variables.copyInto
      split
      · exact fun _ _ h => h.elim
      · exact ih
      · exact after (setsAgain v.1 _ |>.never) fun _ => ih.thenPure fun _ h => h
  induction vs with
  | nil => exact pure _
  | cons v vs ih =>
    unfold Variables.copyInto
    split
    · exact fun _ _ h => h.elim
    · exact ih
    · exact after (setsValue v.1 _) fun _ => (hrest vs).thenPure fun _ h => h

theorem inherit (source target : String) (floor : Option Int) (only : Option (List String)) :
    Careful r s (Looks r s) Except.isOk (Variables.inherit source target floor only) := by
  unfold Variables.inherit
  split
  · exact pure _
  · refine after Reads.definitions fun ds => ?_
    refine after (Reads.loadValues source) fun vs => ?_
    exact (copyInto target floor _).thenPure fun _ _ => rfl

/-! ### Suites -/

theorem activate (id : String) : Careful r s (Looks r s) (fun b => b) (Suites.activate id) := by
  unfold Suites.activate
  refine after (Reads.findSuite id) fun x => ?_
  split
  · exact pure _
  · exact ofSureThen (Sure.setActive _) rfl

theorem createSuite (name : Option String) (enabled : Bool) (trigger : Option Trigger)
    (useSnapshot : Option Bool) : Careful r s (Looks r s) (fun _ => true)
      (Suites.create name enabled trigger useSnapshot) := by
  unfold Suites.create
  refine after Reads.suites fun suites => ?_
  refine after (Reads.newId "suite" 5) fun id => ?_
  refine afterNow fun now => ofSure ((Sure.changeRoot _).bind fun _ => .ite ?_ fun _ _ => rfl)
  exact (Sure.setActive _).bind fun _ _ _ => rfl

theorem deleteSuite (id : String) :
    Careful r s (Looks r s) (fun b => b) (Suites.delete id) := by
  unfold Suites.delete
  refine after Reads.suites fun suites => ?_
  split
  · exact pure _
  · refine ofSure ((Sure.changeRoot _).bind fun _ => Sure.settings.bind fun _ => ?_)
    exact .ite ((Sure.setActive _).bind fun _ _ _ => rfl) fun _ _ => rfl

theorem updateSuite (id : String) (updates : List (String × Json)) :
    Careful r s (Looks r s) (fun b => b) (Suites.update id updates) := by
  unfold Suites.update
  refine after Reads.suites fun suites => ?_
  split
  · exact pure _
  · refine after Reads.context fun ctx => ?_
    refine after (Reads.valid _) fun x => ?_
    exact ofSureThen (Sure.changeRoot _) rfl

theorem addItem (id : String) (place : Option Int) {make : Suite → Activity Storage (Option Item)}
    (hmake : ∀ x, Reads r s (make x)) :
    Careful r s (Looks r s) Option.isSome (Suites.addItem id place make) := by
  unfold Suites.addItem
  refine after (Reads.findSuite id) fun x => ?_
  split
  · exact pure _
  · refine after (hmake _) fun item => ?_
    split
    · exact pure _
    · exact ofSureThen (Sure.setItems id _) rfl

theorem addPrompt (id content name : String) (place : Option Int) :
    Careful r s (Looks r s) Option.isSome (Suites.addPrompt id content name place) :=
  addItem id place fun _ => (Reads.newId "item" 5).bind fun _ => Reads.pure _

theorem addSlot (id variableId : String) (place : Option Int) :
    Careful r s (Looks r s) Option.isSome (Suites.addSlot id variableId place) :=
  addItem id place fun _ => .ite (Reads.pure _) (Reads.pure _)

theorem addChat (id name : String) (range : Option RangeRule) (excludeUser : Bool)
    (scripts : Option ScriptSet) (place : Option Int) : Careful r s (Looks r s) Option.isSome
      (Suites.addChat id name range excludeUser scripts place) :=
  addItem id place fun _ => (Reads.newId "item" 5).bind fun _ => Reads.pure _

theorem addCharacter (id characterId part label : String) (entryUid : Option Int) :
    Careful r s (Looks r s) Option.isSome
      (Suites.addCharacter id characterId part label entryUid) :=
  addItem id none fun _ => by
    refine .ite (Reads.pure _) ?_
    refine (Reads.newId "item" 5).bind fun itemId => ?_
    exact Reads.context.bind fun ctx => (Reads.valid _).bind fun _ => Reads.pure _

theorem updateItem (id itemId : String) (updates : List (String × Json)) :
    Careful r s (Looks r s) (fun b => b) (Suites.updateItem id itemId updates) := by
  unfold Suites.updateItem
  refine after (Reads.findSuite id) fun x => ?_
  split
  · exact pure _
  split
  · exact pure _
  · refine after Reads.context fun ctx => ?_
    refine after (Reads.valid _) fun new => ?_
    exact ofSureThen (Sure.setItems id _) rfl

theorem removeItem (id itemId : String) :
    Careful r s (Looks r s) (fun b => b) (Suites.removeItem id itemId) := by
  unfold Suites.removeItem
  refine after (Reads.findSuite id) fun x => ?_
  split
  · exact pure _
  split
  · exact pure _
  · exact ofSureThen (Sure.setItems id _) rfl

theorem reorderItems (id : String) (ids : List String) :
    Careful r s (Looks r s) (fun b => b) (Suites.reorderItems id ids) := by
  unfold Suites.reorderItems
  refine after (Reads.findSuite id) fun x => ?_
  split
  · exact pure _
  · exact .ite (pure _) (ofSureThen (Sure.setItems id _) rfl)

end Careful

/-! ## Requests -/

/-- Does `x` and says whether it was done. -/
def Activity.judged {σ : Type} (good : α → Bool) (x : Activity σ α) : Activity σ Bool :=
  x >>= fun a => pure (good a)

/-- Does an operation and says whether it was done. -/
def VariableOperation.report : VariableOperation → Activity Storage Bool
  | .list => Variables.list.judged fun _ => true
  | .find id => (Variables.find? id).judged Option.isSome
  | .findByName name => (Variables.findByName? name).judged Option.isSome
  | .findByTag tag => (Variables.findByTag? tag).judged Option.isSome
  | .create name tag mode => (Variables.create name tag mode).judged Except.isOk
  | .rename id name => (Variables.rename id name).judged Except.isOk
  | .delete withSlots id => (Variables.delete withSlots id).judged Except.isOk
  | .stack id chat => (Variables.stack id chat).judged fun _ => true
  | .addEntry id chat content floors =>
    (Variables.addEntry id chat content floors).judged fun _ => true
  | .updateEntry id chat entry content =>
    (Variables.updateEntry id chat entry content).judged Except.isOk
  | .toggleEntry id chat entry => (Variables.toggleEntry id chat entry).judged Except.isOk
  | .deleteEntry id chat entry => (Variables.deleteEntry id chat entry).judged Except.isOk
  | .reorderEntries id chat order => (Variables.reorderEntries id chat order).judged Except.isOk
  | .slot id chat => (Variables.slot id chat).judged fun _ => true
  | .put id chat content floors => (Variables.put id chat content floors).judged fun _ => true
  | .navigate id chat word => (Variables.navigate id chat word).judged Except.isOk
  | .restore id chat version => (Variables.restore id chat version).judged Except.isOk
  | .shown id chat => (Variables.shown id chat).judged fun _ => true
  | .inherit source target floor only =>
    (Variables.inherit source target floor only).judged Except.isOk
  | .text id chat => (Variables.text id chat).judged fun _ => true
  | .textByName name chat => (Variables.textByName name chat).judged fun _ => true
  | .warm chat => (Variables.warm chat).judged fun _ => true

/-- Does an operation and says whether it was done. -/
def SuiteOperation.report : SuiteOperation → Activity Storage Bool
  | .list => Suites.list.judged fun _ => true
  | .find id => (Suites.find? id).judged Option.isSome
  | .active => Suites.active.judged Option.isSome
  | .setActive id => (Suites.setActive id).judged fun _ => true
  | .activate id => Suites.activate id
  | .create name enabled trigger useSnapshot =>
    (Suites.create name enabled trigger useSnapshot).judged fun _ => true
  | .delete id => Suites.delete id
  | .update id updates => Suites.update id updates
  | .addPrompt id content name place =>
    (Suites.addPrompt id content name place).judged Option.isSome
  | .addSlot id variableId place => (Suites.addSlot id variableId place).judged Option.isSome
  | .addChat id name range excludeUser scripts place =>
    (Suites.addChat id name range excludeUser scripts place).judged Option.isSome
  | .addCharacter id characterId part label entryUid =>
    (Suites.addCharacter id characterId part label entryUid).judged Option.isSome
  | .updateItem id itemId updates => Suites.updateItem id itemId updates
  | .removeItem id itemId => Suites.removeItem id itemId
  | .reorderItems id ids => Suites.reorderItems id ids
  | .removeSlots variableId => (Suites.removeSlots variableId).judged fun _ => true
  | .enabledVariables id => (Suites.enabledVariables id).judged fun _ => true
  | .visibleItems id => (Suites.visibleItems id).judged fun _ => true

/-- An operation on variables or suites. -/
inductive Request where
  | ofVariables (op : VariableOperation)
  | ofSuites (op : SuiteOperation)

def Request.report : Request → Activity Storage Bool
  | .ofVariables op => op.report
  | .ofSuites op => op.report

/-- The value that a request takes from memory and changes. -/
def Request.edits? : Request → Option (String × String)
  | .ofVariables (.addEntry id chat _ _) | .ofVariables (.updateEntry id chat _ _)
  | .ofVariables (.toggleEntry id chat _) | .ofVariables (.deleteEntry id chat _)
  | .ofVariables (.reorderEntries id chat _) | .ofVariables (.put id chat _ _)
  | .ofVariables (.navigate id chat _) | .ofVariables (.restore id chat _) => some (id, chat)
  | _ => none

namespace Careful

/-- Every request is careful. -/
theorem request (op : Request) (hover : ∀ id chat, op.edits? = some (id, chat) →
    ¬ s.Leftover id chat) : Careful r s (Looks r s) (fun b => b) op.report := by
  have hreads {β : Type} {x : Activity Storage β} (hx : Reads r s x) (good : β → Bool) :
      Careful r s (Looks r s) (fun b => b) (x.judged good) :=
    .ofReads (hx.bind fun _ => Reads.pure _)
  have hjudged {β : Type} {x : Activity Storage β} {good : β → Bool}
      (hx : Careful r s (Looks r s) good x) :
      Careful r s (Looks r s) (fun b => b) (x.judged good) := hx.thenPure fun _ h => h
  cases op with
  | ofVariables op =>
    cases op with
    | list => exact hreads (Reads.definitions.bind fun ds => Reads.pure _) _
    | find id => exact hreads (Reads.findVariable id) _
    | findByName name => exact hreads (Reads.findByName name) _
    | findByTag tag => exact hreads (Reads.definitions.bind fun ds => Reads.pure _) _
    | create name tag mode => exact hjudged (createVariable name tag mode)
    | rename id name => exact hjudged (rename id name)
    | delete withSlots id => exact hjudged (deleteVariable withSlots id)
    | stack id chat => exact hreads (Reads.stack id chat) _
    | addEntry id chat content floors => exact hjudged (addEntry (hover id chat rfl) content floors)
    | updateEntry id chat entry content => exact hjudged (changeEntry (hover id chat rfl) entry _)
    | toggleEntry id chat entry =>
      exact hjudged ((changeEntry (hover id chat rfl) entry _).thenPure fun a h => by
        cases a <;> exact h)
    | deleteEntry id chat entry => exact hjudged (deleteEntry (hover id chat rfl) entry)
    | reorderEntries id chat order => exact hjudged (reorderEntries (hover id chat rfl) order)
    | slot id chat => exact hreads (Reads.slot id chat) _
    | put id chat content floors => exact hjudged (put (hover id chat rfl) content floors)
    | navigate id chat word => exact hjudged (navigate (hover id chat rfl) word)
    | restore id chat version => exact hjudged (restore (hover id chat rfl) version)
    | shown id chat => exact hreads (Reads.shown id chat) _
    | inherit source target floor only => exact hjudged (inherit source target floor only)
    | text id chat => exact hreads (Reads.text id chat) _
    | textByName name chat => exact hreads (Reads.textByName name chat) _
    | warm chat =>
      exact hreads (Reads.load.bind fun _ => (Reads.loadValues chat).bind fun _ => Reads.pure _) _
  | ofSuites op =>
    cases op with
    | list => exact hreads (Reads.suites.bind fun l => Reads.pure _) _
    | find id => exact hreads (Reads.findSuite id) _
    | active => exact hreads Reads.active _
    | setActive id => exact ofSureThen (Sure.setActive id) rfl
    | activate id => exact activate id
    | create name enabled trigger useSnapshot =>
      exact hjudged (createSuite name enabled trigger useSnapshot)
    | delete id => exact deleteSuite id
    | update id updates => exact updateSuite id updates
    | addPrompt id content name place => exact hjudged (addPrompt id content name place)
    | addSlot id variableId place => exact hjudged (addSlot id variableId place)
    | addChat id name range excludeUser scripts place =>
      exact hjudged (addChat id name range excludeUser scripts place)
    | addCharacter id characterId part label entryUid =>
      exact hjudged (addCharacter id characterId part label entryUid)
    | updateItem id itemId updates => exact updateItem id itemId updates
    | removeItem id itemId => exact removeItem id itemId
    | reorderItems id ids => exact reorderItems id ids
    | removeSlots variableId => exact ofSureThen (Sure.removeSlots variableId) rfl
    | enabledVariables id =>
      exact hreads ((Reads.findSuite id).bind fun _ => Reads.pure _) _
    | visibleItems id => exact hreads ((Reads.findSuite id).bind fun _ => Reads.pure _) _

end Careful

/-- If a request fails, then the root and the documents stay as they were, and each chat is served
with the same values by a shelf that goes on to answer in the same way. The value that the request
edits must not be left over from a document that cannot be read any more. -/
theorem looks_same_of_failed (op : Request) (hroot : s.store.root = some r)
    (hover : ∀ id chat, op.edits? = some (id, chat) → ¬ s.Leftover id chat)
    {result : Except Failure Bool} (hrun : ended op.report s = (result, t))
    (hfailed : result = .ok false ∨ (∃ fault, result = .error (.storage fault)) ∨
      ∃ issues, result = .error (.invalid issues)) :
    t.store.root = some r ∧ t.shelf.documents = s.shelf.documents ∧
      ∀ shelf : Shelf, (∀ name, (shelf.read name).1 = (s.shelf.read name).1) → ∀ chat,
        (ended (Storage.loadValues chat) { t with shelf := shelf }).1 =
          (ended (Storage.loadValues chat) { s with shelf := shelf }).1 := by
  have hlooks := Careful.request op hover s (Looks.refl hroot)
  rw [hrun] at hlooks
  have hfailed : Failed (fun b => b) result := by
    rcases hfailed with rfl | ⟨fault, rfl⟩ | ⟨issues, rfl⟩
    · rfl
    · exact trivial
    · exact trivial
  have hlooks := hlooks hfailed
  exact ⟨hlooks.root, hlooks.documents, fun shelf hshelf => hlooks.loadValues hroot hshelf⟩

/-- Values cannot be inherited into a chat that cannot be read. -/
theorem looks_same_of_failed_inherit : ∃ (s t : Storage) (r : Root),
    s.store.root = some r ∧ (s.store.value? "var_log" "old").isSome = true ∧
      ended (Request.report (.ofVariables (.inherit "old" "new" none none))) s =
        (.error (.storage (.chatUnreadable "new")), t) ∧
      t.store.root = some r ∧ t.shelf.documents = s.shelf.documents ∧
      ∀ shelf : Shelf, (∀ name, (shelf.read name).1 = (s.shelf.read name).1) → ∀ chat,
        (ended (Storage.loadValues chat) { t with shelf := shelf }).1 =
          (ended (Storage.loadValues chat) { s with shelf := shelf }).1 := by
  let r : Root := { Root.standard with
    definitions := [("var_log", ⟨"var_log", "log", "[log]", .stack, 0, 0⟩)] }
  let store : Store := { Store.empty "root" "values-" 0 0 with
    root := some r
    values := [("old", [("var_log", .stack ⟨[⟨1, "one", "1", 0, false⟩], 2⟩)])] }
  let s : Storage := ⟨store, (Shelf.ofDocuments []).refusing true false, ⟨0, 0⟩, .start⟩
  refine ⟨s, (ended (Request.report (.ofVariables (.inherit "old" "new" none none))) s).2, r, rfl,
    rfl, rfl, ?_⟩
  exact looks_same_of_failed (.ofVariables (.inherit "old" "new" none none)) rfl nofun rfl
    (Or.inr (Or.inl ⟨.chatUnreadable "new", rfl⟩))

end TagLedger
