import TagLedger.Proofs.Reading

/-!
# Storages that are alike for a chat

What a chat is served with depends on what is in memory, on the texts of the root and of the chat, on
the clock and on what is refused, and on no other document. Two storages that agree on all of that
do so after the root and the chat were loaded, and give the same answers.

    Alike chat s t → (ended (loadValues chat) t).1 = (ended (loadValues chat) s).1   (Alike.loadValues)
-/

namespace TagLedger

variable {α β : Type} {chat : String} {s t : Storage}

/-- Two storages agree on all that is of use for a chat. -/
structure Alike (chat : String) (s t : Storage) : Prop where
  store : t.store = s.store
  clock : t.clock = s.clock
  refuses : t.shelf.refuses = s.shelf.refuses
  root : t.shelf.find? s.store.rootName = s.shelf.find? s.store.rootName
  values : t.shelf.find? (Store.valuesName s.store.valuesStart chat) =
    s.shelf.find? (Store.valuesName s.store.valuesStart chat)

/-- The same is done to storages that are alike, and gives the same. -/
def SameNow (chat : String) (x : Action Storage α) : Prop :=
  ∀ s t, Alike chat s t → (exec x t).1 = (exec x s).1 ∧ Alike chat (exec x s).2 (exec x t).2

/-- So it is with an activity, if every wait is answered at once. -/
def SameEnd (chat : String) (x : Activity Storage α) : Prop :=
  ∀ s t, Alike chat s t → (ended x t).1 = (ended x s).1 ∧ Alike chat (ended x s).2 (ended x t).2

/-- The answers of two shelves agree that refuse the same, and so do their texts. -/
structure Shelf.Same (f : Shelf → Except StorageFault α × Shelf) : Prop where
  answer : ∀ a b : Shelf, b.refuses = a.refuses → (f b).1 = (f a).1
  refuses : ∀ a b : Shelf, b.refuses = a.refuses → (f b).2.refuses = (f a).2.refuses
  texts : ∀ (a b : Shelf) (name : String), b.refuses = a.refuses → b.find? name = a.find? name →
    (f b).2.find? name = (f a).2.find? name

/-- An access is refused, and changes no texts, or is done, and changes the texts in the same way. -/
theorem Shelf.Same.ofCases {f : Shelf → Except StorageFault α × Shelf} {access : Access} {a : α}
    {e : StorageFault} {call : Call} {g : Shelf → Shelf}
    (hrefused : ∀ {s : Shelf}, s.refuses access = true → f s = (.error e, s.keepCall call))
    (hdone : ∀ {s : Shelf}, s.refuses access = false → f s = (.ok a, g s))
    (hg : ∀ s, (g s).refuses = s.refuses) (htexts : ∀ (s t : Shelf) (name : String),
      t.find? name = s.find? name → (g t).find? name = (g s).find? name) : Shelf.Same f := by
  have hrun {s t : Shelf} (h : t.refuses = s.refuses) :
      (f s = (.error e, s.keepCall call) ∧ f t = (.error e, t.keepCall call)) ∨
        (f s = (.ok a, g s) ∧ f t = (.ok a, g t)) := by
    cases hr : s.refuses access with
    | true => exact Or.inl ⟨hrefused hr, hrefused ((congrFun h _).trans hr)⟩
    | false => exact Or.inr ⟨hdone hr, hdone ((congrFun h _).trans hr)⟩
  refine ⟨fun s t h => ?_, fun s t h => ?_, fun s t name h hname => ?_⟩
  all_goals
    rcases hrun h with ⟨hs, ht⟩ | ⟨hs, ht⟩
    all_goals rw [hs, ht]
  · exact h
  · exact (hg t).trans (h.trans (hg s).symm)
  · exact hname
  · exact htexts s t name hname

theorem Shelf.same_write (name text : String) : Shelf.Same (·.write name text) := by
  refine .ofCases (fun h => write_refused h text) (fun h => write_done h text) (fun _ => rfl)
    fun s t n hn => ?_
  unfold find? written
  dsimp only
  rw [Json.find?_insert, Json.find?_insert]
  exact congrArg (fun x => if name = n then some text else x) hn

theorem Shelf.same_delete (name : String) : Shelf.Same (·.delete name) := by
  refine .ofCases (fun h => delete_refused h) (fun h => delete_done h) (fun _ => rfl)
    fun s t n hn => ?_
  unfold find? dropped
  dsimp only
  rw [Json.find?_filter fun x => x != name, Json.find?_filter fun x => x != name]
  exact congrArg (fun x => if n != name then x else none) hn

/-! ## Actions -/

namespace SameNow

theorem pure (a : α) : SameNow chat (pure a : Action Storage α) := fun _ _ h => ⟨rfl, h⟩

theorem throw (e : Failure) : SameNow chat (throw e : Action Storage α) := fun _ _ h => ⟨rfl, h⟩

theorem bind {x : Action Storage α} {f : α → Action Storage β} (hx : SameNow chat x)
    (hf : ∀ a, SameNow chat (f a)) : SameNow chat (x >>= f) := fun s t h => by
  obtain ⟨hanswer, halike⟩ := hx s t h
  rw [exec_bind, exec_bind]
  rcases hs : exec x s with ⟨a, s'⟩
  rcases ht : exec x t with ⟨b, t'⟩
  rw [hs, ht] at hanswer halike
  obtain rfl : b = a := hanswer
  cases b with
  | ok a => exact hf a s' t' halike
  | error e => exact ⟨rfl, halike⟩

theorem tryCatch {x : Action Storage α} {f : Failure → Action Storage α} (hx : SameNow chat x)
    (hf : ∀ e, SameNow chat (f e)) : SameNow chat (tryCatch x f) := fun s t h => by
  obtain ⟨hanswer, halike⟩ := hx s t h
  rw [exec_tryCatch, exec_tryCatch]
  rcases hs : exec x s with ⟨a, s'⟩
  rcases ht : exec x t with ⟨b, t'⟩
  rw [hs, ht] at hanswer halike
  obtain rfl : b = a := hanswer
  cases b with
  | ok a => exact ⟨rfl, halike⟩
  | error e => exact hf e s' t' halike

/-- What is done depends on what is in memory. -/
theorem getThen {f : Storage → Action Storage α}
    (hsame : ∀ s t : Storage, t.store = s.store → f t = f s) (hf : ∀ s, SameNow chat (f s)) :
    SameNow chat (get >>= f) := fun s t h => by
  rw [exec_bind, exec_bind, exec_get, exec_get]
  dsimp only
  rw [hsame s t h.store]
  exact hf s s t h

theorem onStore {f : Store → Store}
    (hf : ∀ s, (f s).rootName = s.rootName ∧ (f s).valuesStart = s.valuesStart) :
    SameNow chat (Storage.onStore f) := fun s t h => by
  refine ⟨rfl, congrArg f h.store, h.clock, h.refuses, ?_, ?_⟩
  · change t.shelf.find? (f s.store).rootName = s.shelf.find? (f s.store).rootName
    rw [(hf s.store).1]
    exact h.root
  · change t.shelf.find? (Store.valuesName (f s.store).valuesStart chat) =
      s.shelf.find? (Store.valuesName (f s.store).valuesStart chat)
    rw [(hf s.store).2]
    exact h.values

theorem storeThen {f : Store → Store} {k : Unit → Action Storage α}
    (hf : ∀ s, (f s).rootName = s.rootName ∧ (f s).valuesStart = s.valuesStart)
    (hk : ∀ u, SameNow chat (k u)) : SameNow chat (Storage.onStore f >>= k) :=
  (onStore hf).bind hk

theorem onShelf {f : Shelf → Except StorageFault α × Shelf} (hf : Shelf.Same f) :
    SameNow chat (Storage.onShelf f) := fun s t h => by
  refine ⟨congrArg Except.ok (hf.answer s.shelf t.shelf h.refuses), h.store, h.clock,
    hf.refuses s.shelf t.shelf h.refuses, ?_, ?_⟩
  · exact hf.texts s.shelf t.shelf _ h.refuses h.root
  · exact hf.texts s.shelf t.shelf _ h.refuses h.values

theorem context : SameNow chat Storage.context := fun s t h => by
  rw [Storage.exec_context, Storage.exec_context, h.clock]
  exact ⟨rfl, h⟩

theorem pageText (j : Json) : SameNow chat (Storage.pageText j) := by
  unfold Storage.pageText
  split
  · exact .pure _
  · exact .throw _

theorem store? (f : Store → α) : SameNow chat (Storage.store? f) :=
  getThen (fun _ _ h => congrArg (fun a => Pure.pure (f a)) h) fun _ => .pure _

theorem checkWritable (other : String) : SameNow chat (Storage.checkWritable other) := by
  refine getThen (fun s t h => by rw [h]) fun s => ?_
  split
  · exact .throw _
  · exact .pure _

/-! ### Writing -/

theorem save : SameNow chat Storage.save := by
  unfold Storage.save
  refine getThen (fun s t h => by rw [h]) fun s => ?_
  dsimp only
  split
  · exact .pure _
  refine storeThen (fun _ => ⟨rfl, rfl⟩) fun _ => ?_
  split
  · exact fun _ _ h => ⟨rfl, h⟩
  refine (pageText _).bind fun text => storeThen (fun _ => ⟨rfl, rfl⟩) fun _ => ?_
  refine (onShelf (Shelf.same_write _ text)).bind fun answer => ?_
  split
  · exact .pure _
  · exact storeThen (fun _ => ⟨rfl, rfl⟩) fun _ => .throw _

theorem saveValues (other : String) : SameNow chat (Storage.saveValues other) := by
  unfold Storage.saveValues
  refine getThen (fun s t h => by rw [h]) fun s => ?_
  dsimp only
  split
  · exact .pure _
  refine (checkWritable other).bind fun _ => storeThen (fun _ => ⟨rfl, rfl⟩) fun _ => ?_
  split
  · refine (onShelf (Shelf.same_delete _)).bind fun answer => ?_
    split
    · exact .pure _
    · exact storeThen (fun _ => ⟨rfl, rfl⟩) fun _ => .throw _
  · refine (pageText _).bind fun text => (onShelf (Shelf.same_write _ text)).bind fun answer => ?_
    split
    · exact .pure _
    · exact storeThen (fun _ => ⟨rfl, rfl⟩) fun _ => .throw _

theorem noting {x : Action Storage Unit} (hx : SameNow chat x) : SameNow chat (Storage.noting x) := by
  refine SameNow.tryCatch ?_ fun e => ?_
  · rw [seqRight_eq_bind]
    exact hx.bind fun _ => .pure _
  · cases e with
    | storage e => exact .pure _
    | _ => exact .throw _

theorem saveEach (l : List String) : SameNow chat (Storage.saveEach l) := by
  induction l with
  | nil => exact .pure _
  | cons other l ih => exact (noting (saveValues other)).bind fun _ => ih.bind fun _ => .pure _

theorem flushQuietly : SameNow chat Storage.flushQuietly := by
  have hroot : SameNow chat Storage.flushRoot := by
    refine getThen (fun s t h => by rw [h]) fun s => ?_
    dsimp only
    split
    · exact noting save
    · exact .pure _
  have hvalues : SameNow chat Storage.flushValues :=
    storeThen (fun _ => ⟨rfl, rfl⟩) fun _ => (store? _).bind fun l => saveEach l
  have hflushing : SameNow chat Storage.flushing :=
    hroot.bind fun _ => hvalues.bind fun _ => .pure _
  exact hflushing.bind fun _ => .pure _

/-! ### Reading -/

theorem adopt (chats : List (String × ChatValues)) : SameNow chat (Storage.adopt chats) := by
  refine onStore fun s => ?_
  induction chats generalizing s with
  | nil => exact ⟨rfl, rfl⟩
  | cons c chats ih => exact ih _

theorem rootOr (r : Root) : SameNow chat (Storage.rootOr r) :=
  getThen (fun s t h => by rw [h]) fun _ => .pure _

theorem takeRoot (answer : Except StorageFault (Option String)) :
    SameNow chat (Storage.takeRoot answer) := by
  have hdegrade : SameNow chat Storage.degradeRoot :=
    storeThen (fun _ => ⟨rfl, rfl⟩) fun _ => .pure _
  unfold Storage.takeRoot
  split
  · exact hdegrade
  · exact storeThen (fun _ => ⟨rfl, rfl⟩) fun _ => flushQuietly.bind fun _ => rootOr _
  · refine context.bind fun ctx => ?_
    split
    · exact hdegrade
    · exact .throw _
    · exact storeThen (fun _ => ⟨rfl, rfl⟩) fun _ => .pure _
    · refine storeThen (fun _ => ⟨rfl, rfl⟩) fun _ => (adopt _).bind fun _ => ?_
      exact storeThen (fun _ => ⟨rfl, rfl⟩) fun _ => flushQuietly.bind fun _ => rootOr _

theorem takeChat (root : Root) (answer : Except StorageFault (Option String)) :
    SameNow chat (Storage.takeChat chat root answer) := fun s t h => by
  have hsame : t = { s with shelf := t.shelf, random := t.random } := by
    rw [← h.store, ← h.clock]
  rw [Storage.exec_takeChat_eq, Storage.exec_takeChat_eq, h.store]
  generalize s.store.root.getD root = r
  unfold Storage.taken
  cases Storage.rawOf? answer with
  | none =>
    rw [h.store]
    exact ⟨rfl, rfl, h.clock, h.refuses, h.root, h.values⟩
  | some raw =>
    have hkept : t.kept r raw = s.kept r raw := by
      rw [hsame]
      rfl
    have hdrops : t.drops r raw = s.drops r raw := by
      rw [hsame]
      rfl
    dsimp only
    rw [hkept, hdrops, h.store, h.clock]
    refine ⟨rfl, rfl, rfl, h.refuses, ?_, ?_⟩
    · dsimp only
      split
      · exact h.root
      · exact h.root
    · dsimp only
      split
      · exact h.values
      · exact h.values

end SameNow

/-! ## Activities -/

/-- What the shelf answers about the root and the chat is the same. -/
theorem Alike.read {name : String} (h : Alike chat s t)
    (hname : name = s.store.rootName ∨ name = Store.valuesName s.store.valuesStart chat) :
    (t.shelf.read name).1 = (s.shelf.read name).1 ∧
      Alike chat { s with shelf := (s.shelf.read name).2 }
        { t with shelf := (t.shelf.read name).2 } := by
  have hfind : t.shelf.find? name = s.shelf.find? name := by
    rcases hname with rfl | rfl
    · exact h.root
    · exact h.values
  refine ⟨?_, { h with }⟩
  unfold Shelf.read
  rw [h.refuses, hfind]

namespace SameEnd

theorem bind {x : Activity Storage α} {f : α → Activity Storage β} (hx : SameEnd chat x)
    (hf : ∀ a, SameEnd chat (f a)) : SameEnd chat (x >>= f) := fun s t h => by
  obtain ⟨hanswer, halike⟩ := hx s t h
  rw [ended_bind, ended_bind]
  rcases hs : ended x s with ⟨a, s'⟩
  rcases ht : ended x t with ⟨b, t'⟩
  rw [hs, ht] at hanswer halike
  obtain rfl : b = a := hanswer
  cases b with
  | ok a => exact hf a s' t' halike
  | error e => exact ⟨rfl, halike⟩

/-- What is done depends on what is in memory. -/
theorem getThen {f : Storage → Activity Storage α}
    (hsame : ∀ s t : Storage, t.store = s.store → f t = f s) (hf : ∀ s, SameEnd chat (f s)) :
    SameEnd chat (get >>= f) := fun s t h => by
  rw [ended_get_bind, ended_get_bind, hsame s t h.store]
  exact hf s s t h

theorem pure (a : α) : SameEnd chat (pure a : Activity Storage α) := fun _ _ h => ⟨rfl, h⟩

theorem holding (key : Lock) {x : Activity Storage α} (hx : SameEnd chat x) :
    SameEnd chat (Storage.holding key x) := by
  have hacquire : SameEnd chat (Storage.acquire key) := fun s t h => by
    unfold ended
    cases hline : Storage.waitersOf? s.store.held key with
    | none =>
      have hline' : Storage.waitersOf? t.store.held key = none := by rw [h.store, hline]
      rw [Storage.acquire_free hline, Storage.acquire_free hline', h.store]
      exact ⟨rfl, rfl, h.clock, h.refuses, h.root, h.values⟩
    | some n =>
      have hline' : Storage.waitersOf? t.store.held key = some n := by rw [h.store, hline]
      rw [Storage.acquire_held hline, Storage.acquire_held hline', h.store]
      exact ⟨rfl, rfl, h.clock, h.refuses, h.root, h.values⟩
  have hrelease : SameNow chat (Storage.release key) := SameNow.onStore fun s => by
    split <;> exact ⟨rfl, rfl⟩
  refine hacquire.bind fun _ => fun s t h => ?_
  obtain ⟨hanswer, halike⟩ := hx s t h
  obtain ⟨hdone, hafter⟩ := hrelease _ _ halike
  rw [ended_ensuring, ended_ensuring, hanswer]
  rcases hs : exec (Storage.release key) (ended x s).2 with ⟨a, s'⟩
  rcases ht : exec (Storage.release key) (ended x t).2 with ⟨b, t'⟩
  rw [hs, ht] at hdone hafter
  obtain rfl : b = a := hdone
  cases b with
  | ok _ => exact ⟨rfl, hafter⟩
  | error e => exact ⟨rfl, hafter⟩

theorem load : SameEnd chat Storage.load := by
  have hread : SameEnd chat Storage.readRoot := fun s t h => by
    obtain ⟨hanswer, halike⟩ := h.read (Or.inl rfl)
    rw [Storage.ended_readRoot, Storage.ended_readRoot, h.store, hanswer]
    rw [h.store] at halike
    exact SameNow.takeRoot _ _ _ halike
  have honce : SameEnd chat Storage.readRootOnce := getThen (fun s t h => by rw [h]) fun s => by
    split
    · exact .pure _
    · exact hread
  refine getThen (fun s t h => by rw [h]) fun s => ?_
  split
  · exact .pure _
  · exact getThen (fun s t h => by rw [h]) fun s => holding _ honce

theorem loadValues : SameEnd chat (Storage.loadValues chat) := by
  have hread (root : Root) : SameEnd chat (Storage.readChat chat root) := fun s t h => by
    obtain ⟨hanswer, halike⟩ := h.read (Or.inr rfl)
    rw [Storage.ended_readChat, Storage.ended_readChat, h.store, hanswer]
    rw [h.store] at halike
    exact SameNow.takeChat _ _ _ _ halike
  have honce (root : Root) : SameEnd chat (Storage.readChatOnce chat root) :=
    getThen (fun s t h => by rw [h]) fun s => by
      split
      · exact .pure _
      · exact hread root
  refine getThen (fun s t h => by rw [h]) fun s => ?_
  split
  · exact .pure _
  · exact load.bind fun root => getThen (fun s t h => by rw [h]) fun s => holding _ (honce root)

end SameEnd

/-- A chat is served with the same values from storages that are alike for it. -/
theorem Alike.loadValues (h : Alike chat s t) :
    (ended (Storage.loadValues chat) t).1 = (ended (Storage.loadValues chat) s).1 :=
  (SameEnd.loadValues s t h).1

end TagLedger
