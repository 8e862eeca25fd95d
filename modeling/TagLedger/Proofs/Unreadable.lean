import TagLedger.Proofs.Loading
import TagLedger.Proofs.Operations

/-!
# Documents that could not be read

While the latest reading of a document gave nothing of use, nobody writes or removes it. That is
kept together with what the store knows of such documents: the root is missing or marked, and a
chat is marked. The one activity that reads the root counts on it to be missing until it has read,
which the lock of the root sees to.

    Failing name calls  →  the root is missing or marked      (Fit.root)
    Failing name calls  →  the chat is marked                 (Fit.chats)
-/

namespace TagLedger

/-! ## What was asked -/

/-- The document that a call would change. -/
def Shelf.Call.target? : Shelf.Call → Option String
  | .read _ _ => none
  | .write name _ _ => some name
  | .delete name _ => some name

namespace Naming

variable (N : Naming)

/-- What reading a document gave is of no use. -/
def Useless (name : String) : Except StorageFault (Option String) → Prop
  | .error _ => True
  | .ok none => False
  | .ok (some text) =>
    if name = N.rootName then
      ∀ now r moved, Storage.RootReading.ofText ⟨now, false⟩ text ≠ .root r moved
    else Storage.rawValues? (some text) = none

/-- The latest reading of a document gave nothing of use. The latest call stands first. -/
def Failing (name : String) : List Shelf.Call → Prop
  | [] => False
  | .read n answer :: earlier => if n = name then N.Useless name answer else Failing name earlier
  | _ :: earlier => Failing name earlier

/-- No document was changed while its latest reading had given nothing of use. -/
def Untouched : List Shelf.Call → Prop
  | [] => True
  | c :: earlier => (∀ name, c.target? = some name → ¬ N.Failing name earlier) ∧ Untouched earlier

/-- The chats in the older root documents that were read are used. -/
def Admits (calls : List Shelf.Call) : Prop :=
  ∀ text, .read N.rootName (.ok (some text)) ∈ calls → ∀ now r chats,
    Storage.RootReading.ofText ⟨now, false⟩ text = .root r (some chats) →
      ∀ c ∈ Json.keys chats, N.used c

variable {N} {name : String} {calls : List Shelf.Call}

theorem failing_read (answer : Except StorageFault (Option String)) :
    N.Failing name (.read name answer :: calls) ↔ N.Useless name answer := by
  simp only [Failing, if_true]

theorem failing_read_other {n : String} (h : n ≠ name)
    (answer : Except StorageFault (Option String)) :
    N.Failing name (.read n answer :: calls) ↔ N.Failing name calls := by
  simp only [Failing, if_neg h]

theorem Admits.tail {c : Shelf.Call} (h : N.Admits (c :: calls)) : N.Admits calls :=
  fun text ht => h text (List.mem_cons_of_mem c ht)

/-- Before each call that changes a document, the latest reading of that document was of use. -/
theorem Untouched.split {c : Shelf.Call} {later earlier : List Shelf.Call}
    (h : N.Untouched (later ++ c :: earlier)) {name : String} (hc : c.target? = some name) :
    ¬ N.Failing name earlier := by
  induction later with
  | nil => exact h.1 name hc
  | cons d later ih => exact ih h.2

end Naming

/-! ## The invariant -/

/-- The lock of the root is held if `busy`, and else is free or was just handed over. -/
structure Latched (busy : Bool) (epoch : Nat) (held : List (Lock × Nat)) (granted : List Lock) :
    Prop where
  current : ∀ e, Lock.root e ∈ held.map (·.1) → e = epoch
  handed : ∀ e, Lock.root e ∈ granted → e = epoch
  taken : busy = true → Lock.root epoch ∈ held.map (·.1) ∧ Lock.root epoch ∉ granted
  free : busy = false →
    granted.count (.root epoch) = if Lock.root epoch ∈ held.map (·.1) then 1 else 0

/-- The store knows which documents could not be read. -/
structure Fit (N : Naming) (s : Storage) : Prop where
  cached : ∀ c ∈ Json.keys s.store.values, N.used c
  root : N.Failing N.rootName s.shelf.calls → s.store.root = none ∨ s.store.rootDegraded = true
  chats : ∀ c, N.used c → N.Failing (Store.valuesName N.valuesStart c) s.shelf.calls →
    c ∈ s.store.degraded
  untouched : N.Untouched s.shelf.calls

/-- A storage with some root in memory that never writes what it could not read. -/
structure Wary (N : Naming) (epoch : Nat) (root : Option Root) (busy : Bool) (s : Storage) :
    Prop where
  epoch : s.store.epoch = epoch
  rootName : s.store.rootName = N.rootName
  valuesStart : s.store.valuesStart = N.valuesStart
  inMemory : s.store.root = root
  latched : Latched busy s.store.epoch s.store.held s.store.granted
  fit : N.Admits s.shelf.calls → Fit N s

/-- What holds whenever no activity runs. Who reads the root counts on it to be missing, and on
nothing having been forgotten. -/
def Between (N : Naming) (reading : Option Nat) (s : Storage) : Prop :=
  Wary N s.store.epoch s.store.root reading.isSome s ∧
    ∀ epoch, reading = some epoch → s.store.root = none ∧ s.store.epoch = epoch

variable {N : Naming} {epoch : Nat} {root : Option Root} {busy : Bool} {s : Storage}
  {chat : String}

namespace Wary

/-- The locks may change in a way that keeps the lock of the root in order. -/
theorem line {held : List (Lock × Nat)} {granted : List Lock} {b : Bool}
    (h : Wary N epoch root busy s) (hl : Latched b epoch held granted) :
    Wary N epoch root b
      { s with store := { s.store with held := held, granted := granted } } :=
  { h with
    latched := h.epoch ▸ hl
    fit := fun ha => { h.fit ha with } }

/-- Timers, the dirt and what else the invariant does not speak of may change. -/
theorem quiet (h : Wary N epoch root busy s) {rootDirty : Bool} {rootTimer valuesTimer : Option Nat}
    {dirty removed : List String} {clock : Clock} {random : Identifier.Random} :
    Wary N epoch root busy
      { s with
        store := { s.store with
          rootDirty := rootDirty, rootTimer := rootTimer, valuesTimer := valuesTimer
          dirty := dirty, removed := removed }
        clock := clock, random := random } :=
  { h with fit := fun ha => { h.fit ha with } }

/-! ## Writing -/

theorem attemptRoot {r : Root} (h : Wary N epoch root busy s) (hr : s.store.root = some r)
    (hd : s.store.rootDegraded = false) : Wary N epoch root busy (s.attemptRoot r).2 := by
  have hfine (hfit : Fit N s) : ¬ N.Failing N.rootName s.shelf.calls := fun hf => by
    rcases hfit.root hf with hnone | htrue
    · rw [hr] at hnone
      contradiction
    · rw [hd] at htrue
      contradiction
  have huntouched (text : String) (done : Bool) (hfit : Fit N s) :
      N.Untouched (.write s.store.rootName text done :: s.shelf.calls) := by
    refine ⟨fun name hname => ?_, hfit.untouched⟩
    obtain rfl := Option.some.inj hname
    rw [h.rootName]
    exact hfine hfit
  unfold Storage.attemptRoot
  dsimp only
  split
  · exact { h with fit := fun ha =>
      have hfit := h.fit ha.tail
      { hfit with untouched := huntouched _ _ hfit } }
  · exact { h with fit := fun ha =>
      have hfit := h.fit ha.tail
      { hfit with untouched := huntouched _ _ hfit } }

/-- A chat in memory whose document was readable may be written or removed. -/
theorem attemptChat {vs : ChatValues} (h : Wary N epoch root busy s)
    (hc : s.store.cached? chat = some vs) (hd : s.store.isDegraded chat = false) :
    Wary N epoch root busy (s.attemptChat chat vs).2 := by
  have hused (hfit : Fit N s) : N.used chat :=
    hfit.cached chat (Json.mem_keys_of_find? hc)
  have hnot : chat ∉ s.store.degraded := by
    unfold Store.isDegraded at hd
    rwa [List.contains_eq_mem, decide_eq_false_iff_not] at hd
  have huntouched (c : Shelf.Call)
      (hname : c.target? = some (Store.valuesName s.store.valuesStart chat)) (hfit : Fit N s) :
      N.Untouched (c :: s.shelf.calls) := by
    refine ⟨fun name hn hf => hnot ?_, hfit.untouched⟩
    rw [hname, h.valuesStart] at hn
    obtain rfl := Option.some.inj hn
    exact hfit.chats chat (hused hfit) hf
  unfold Storage.attemptChat
  dsimp only
  split
  · split
    · exact { h with fit := fun ha =>
        have hfit := h.fit ha.tail
        { hfit with untouched := huntouched _ rfl hfit } }
    · exact { h with fit := fun ha =>
        have hfit := h.fit ha.tail
        { hfit with untouched := huntouched _ rfl hfit } }
  · split
    · exact { h with fit := fun ha =>
        have hfit := h.fit ha.tail
        { hfit with untouched := huntouched _ rfl hfit } }
    · exact { h with fit := fun ha =>
        have hfit := h.fit ha.tail
        { hfit with untouched := huntouched _ rfl hfit } }

theorem writing : KeepsWriting (Wary N epoch root) :=
  .ofAttempts (fun _ _ _ _ _ _ _ h => h.quiet) (fun _ _ _ h hr hd _ => h.attemptRoot hr hd)
    fun _ _ _ _ h hc hd _ => h.attemptChat hc hd

/-! ## Changes in memory -/

theorem saveSoon : KeepsNow (Wary N epoch root) Storage.saveSoon := fun _ _ h => h.quiet

theorem saveValuesSoon (chat : String) : KeepsNow (Wary N epoch root) (Storage.saveValuesSoon chat) :=
  fun _ _ h => h.quiet

theorem newId (kind : String) (n : Nat) : KeepsNow (Wary N epoch root) (Storage.newId kind n) :=
  fun _ _ h => h.quiet

theorem setValues (h : Wary N epoch root busy s) (hc : N.Admits s.shelf.calls → N.used chat)
    (vs : ChatValues) : Wary N epoch root busy { s with store := s.store.setValues chat vs } :=
  { h with fit := fun ha =>
    have hfit := h.fit ha
    have hcached (c : String) (hmem : c ∈ Json.keys (Json.insert s.store.values chat vs)) :
        N.used c :=
      (Json.mem_keys_insert.mp hmem).elim (fun e => e ▸ hc ha) (hfit.cached c)
    { hfit with cached := hcached } }

/-- A root that takes the place of the one in memory was read, or is marked. -/
theorem setRoot (h : Wary N epoch root busy s)
    (hr : N.Admits s.shelf.calls → N.Failing N.rootName s.shelf.calls →
      s.store.rootDegraded = true) (r : Root) :
    Wary N epoch (some r) busy { s with store := { s.store with root := some r } } :=
  { h with
    inMemory := rfl
    fit := fun ha => { h.fit ha with root := fun hf => Or.inr (hr ha hf) } }

theorem degradeRoot (h : Wary N epoch root busy s) :
    Wary N epoch (some .standard) busy (exec Storage.degradeRoot s).2 :=
  { h with
    inMemory := rfl
    fit := fun ha => { h.fit ha with root := fun _ => Or.inr rfl } }

theorem adopt {chats : List (String × ChatValues)} (h : Wary N epoch root busy s)
    (hc : N.Admits s.shelf.calls → ∀ c ∈ Json.keys chats, N.used c) :
    Wary N epoch root busy (exec (Storage.adopt chats) s).2 := by
  unfold Storage.adopt
  rw [Storage.exec_onStore]
  generalize hstore : s.store = store
  have h' : Wary N epoch root busy { s with store := store } := by
    rw [← hstore]
    exact h
  clear hstore
  induction chats generalizing store with
  | nil => exact h'
  | cons c chats ih =>
    have hset := h'.setValues (fun ha => hc ha c.1 List.mem_cons_self) c.2
    exact ih (fun ha d hd => hc ha d (List.mem_cons_of_mem _ hd)) _ hset.quiet

/-- The chats in memory may lose a variable. -/
theorem removeFromChats (id : String) {keys : List String} {l : List (String × ChatValues)}
    (hl : ∀ c ∈ Json.keys l, c ∈ keys) :
    KeepsNow (fun busy s => Wary N epoch root busy s ∧
      (N.Admits s.shelf.calls → ∀ c ∈ keys, N.used c)) (Storage.removeFromChats id l) := by
  refine .removeFromChats (fun c hc _ s h => ⟨?_, h.2⟩) fun _ _ s h => ⟨h.1.quiet, h.2⟩
  exact h.1.setValues (fun ha => h.2 ha c.1 (hl c.1 (List.mem_map_of_mem hc))) _

theorem removeValues (id : String) : KeepsNow (Wary N epoch root) (Storage.removeValues id) := by
  refine KeepsNow.bind (x := Storage.onStore _) (fun _ _ h => h.quiet) fun _ busy s h => ?_
  rw [exec_bind, Storage.exec_store?]
  exact (removeFromChats id (fun _ hc => hc) busy s ⟨h, fun ha => (h.fit ha).cached⟩).1

theorem sweep (hc : N.used chat) (vs : ChatValues) (r : Root) :
    KeepsNow (Wary N epoch root) (Storage.sweep chat vs r) := by
  refine KeepsNow.getThen fun s => .ite ?_ (.pure _)
  refine KeepsNow.bind (x := Storage.onStore _) (fun _ _ h => h.setValues (fun _ => hc) _) fun _ => ?_
  exact KeepsNow.bind (saveValuesSoon chat) fun _ => .pure _

end Wary

/-! ## Reading -/

/-- Reading the document of one chat changes what is known of that chat only. -/
theorem Fit.readChat {t : Storage} {answer : Except StorageFault (Option String)} (h : Fit N s)
    (hc : N.used chat)
    (hcalls : t.shelf.calls =
      .read (Store.valuesName N.valuesStart chat) answer :: s.shelf.calls)
    (hroot : t.store.root = s.store.root)
    (hdegraded : t.store.rootDegraded = s.store.rootDegraded)
    (hcached : ∀ c ∈ Json.keys t.store.values, c = chat ∨ c ∈ Json.keys s.store.values)
    (hothers : ∀ c, c ≠ chat → c ∈ s.store.degraded → c ∈ t.store.degraded)
    (hself : N.Useless (Store.valuesName N.valuesStart chat) answer → chat ∈ t.store.degraded) :
    Fit N t where
  cached c hmem := (hcached c hmem).elim (fun e => e ▸ hc) (h.cached c)
  root hf := by
    rw [hcalls, Naming.failing_read_other (N.apart chat hc)] at hf
    rw [hroot, hdegraded]
    exact h.root hf
  chats c hused hf := by
    rw [hcalls] at hf
    by_cases hne : c = chat
    · subst hne
      exact hself ((Naming.failing_read answer).mp hf)
    · have hname : Store.valuesName N.valuesStart chat ≠ Store.valuesName N.valuesStart c :=
        fun e => hne (N.distinct chat c hc hused e).symm
      rw [Naming.failing_read_other hname] at hf
      exact hothers c hne (h.chats c hused hf)
  untouched := by
    rw [hcalls]
    exact ⟨nofun, h.untouched⟩

namespace Wary

/-- What the store is like after it took over a root, successfully or not. -/
def Took (N : Naming) (epoch : Nat) (busy : Bool) (p : Except Failure Root × Storage) : Prop :=
  Wary N epoch p.2.store.root busy p.2 ∧ ∀ r, p.1 = .ok r → p.2.store.root.isSome = true

theorem took {p : Except Failure Root × Storage} {r : Root} (h : Wary N epoch (some r) busy p.2) :
    Took N epoch busy p := by
  have hroot := h.inMemory
  refine ⟨?_, fun _ _ => ?_⟩
  · rw [hroot]
    exact h
  · rw [hroot]
    rfl

theorem readRoot (h : Wary N epoch none busy s) :
    Wary N epoch none busy { s with shelf := (s.shelf.read N.rootName).2 } :=
  { h with fit := fun ha =>
    have hfit := h.fit ha.tail
    { hfit with
      root := fun _ => Or.inl h.inMemory
      chats := fun c hc hf =>
        hfit.chats c hc ((Naming.failing_read_other (N.apart c hc).symm _).mp hf)
      untouched := ⟨nofun, hfit.untouched⟩ } }

/-- The first root in memory is the one that was read, a new one, or a marked one. -/
theorem takeRoot {answer : Except StorageFault (Option String)} {earlier : List Shelf.Call}
    (h : Wary N epoch none busy s) (hcalls : s.shelf.calls = .read N.rootName answer :: earlier) :
    Took N epoch busy (exec (Storage.takeRoot answer) s) := by
  have hset (hgood : ¬ N.Useless N.rootName answer) (r : Root) :
      Wary N epoch (some r) busy { s with store := { s.store with root := some r } } := by
    refine h.setRoot (fun _ hf => ?_) r
    rw [hcalls, Naming.failing_read] at hf
    exact absurd hf hgood
  have hflush (r : Root) : KeepsNow (Wary N epoch (some r)) (do
      Storage.onStore fun s => { s with rootDirty := true }
      Storage.flushQuietly
      Storage.rootOr r) :=
    KeepsNow.bind (fun _ _ h => h.quiet) fun _ => writing.flushQuietly.bind fun _ => .rootOr r
  unfold Storage.takeRoot
  cases answer with
  | error e => exact took h.degradeRoot
  | ok text? =>
    cases text? with
    | none =>
      have hnew := hset (fun hf => hf) .standard
      refine took (r := .standard) ?_
      rw [exec_bind, Storage.exec_onStore]
      exact (writing.flushQuietly.bind fun _ => .rootOr _) _ _ hnew.quiet
    | some text =>
      dsimp only
      rw [exec_bind, Storage.exec_context]
      dsimp only
      cases hread : Storage.RootReading.ofText ⟨s.clock.now, false⟩ text with
      | unusable => exact took h.degradeRoot
      | failed e =>
        have hroot := h.inMemory
        refine ⟨?_, nofun⟩
        rw [exec_throw, hroot]
        exact h
      | root r moved =>
        have hgood : ¬ N.Useless N.rootName (.ok (some text)) := fun hf => by
          rw [Naming.Useless, if_pos rfl] at hf
          exact hf _ r moved hread
        have hnew := hset hgood r
        cases moved with
        | none => exact took hnew
        | some chats =>
          have hc (ha : N.Admits s.shelf.calls) : ∀ c ∈ Json.keys chats, N.used c := by
            refine ha text ?_ s.clock.now r chats hread
            rw [hcalls]
            exact List.mem_cons_self
          refine took (r := r) ?_
          dsimp only
          rw [exec_bind, Storage.exec_onStore]
          dsimp only
          rw [exec_bind]
          exact hflush r _ _ (hnew.adopt hc)

/-- Reading the document of a chat fills the chat, or marks it. -/
theorem takeChat (h : Wary N epoch root busy s) (hc : N.used chat) (r : Root) :
    Wary N epoch root busy (exec (Storage.takeChat chat r
      (s.shelf.read (Store.valuesName N.valuesStart chat)).1)
      { s with shelf := (s.shelf.read (Store.valuesName N.valuesStart chat)).2 }).2 := by
  rcases hread : s.shelf.read (Store.valuesName N.valuesStart chat) with ⟨answer, shelf⟩
  have hcalls : shelf.calls =
      .read (Store.valuesName N.valuesStart chat) answer :: s.shelf.calls := by
    obtain ⟨rfl, rfl⟩ := Prod.mk.inj hread
    rfl
  have htail (ha : N.Admits shelf.calls) : Fit N s := by
    rw [hcalls] at ha
    exact h.fit ha.tail
  have hmarked : Wary N epoch root busy
      (exec (Storage.degradeChat chat) { s with shelf := shelf }).2 := by
    refine { h with fit := fun ha => (htail ha).readChat hc hcalls rfl rfl ?_ ?_ ?_ }
    · intro c hmem
      have hmem : c ∈ Json.keys (if (s.store.cached? chat).isSome then s.store.values
          else s.store.values ++ [(chat, [])]) := hmem
      split at hmem
      · exact Or.inr hmem
      · rw [Json.keys_append, List.mem_append] at hmem
        exact hmem.symm.imp List.mem_singleton.mp id
    · intro c _ hmem
      change c ∈ if s.store.degraded.contains chat then s.store.degraded
        else s.store.degraded ++ [chat]
      split
      · exact hmem
      · exact List.mem_append_left _ hmem
    · intro _
      change chat ∈ if s.store.degraded.contains chat then s.store.degraded
        else s.store.degraded ++ [chat]
      split
      · next hin => exact List.contains_iff_mem.mp hin
      · exact List.mem_append_right _ (List.mem_singleton_self chat)
  unfold Storage.takeChat
  cases answer with
  | error e => exact hmarked
  | ok text =>
    dsimp only
    cases hraw : Storage.rawValues? text with
    | none => exact hmarked
    | some raw =>
      have hgood : ¬ N.Useless (Store.valuesName N.valuesStart chat) (.ok text) := fun hf => by
        cases text with
        | none => exact hf
        | some t =>
          rw [Naming.Useless, if_neg (N.apart chat hc), hraw] at hf
          contradiction
      dsimp only
      rw [exec_bind, Storage.exec_context]
      dsimp only
      rw [exec_bind, Storage.exec_onStore]
      refine KeepsNow.bind (.rootOr r) (fun r => sweep hc _ r) busy _ ?_
      refine { h with fit := fun ha => (htail ha).readChat hc hcalls rfl rfl ?_ ?_ ?_ }
      · intro c hmem
        exact Json.mem_keys_insert.mp hmem
      · intro c hne hmem
        exact List.mem_filter.mpr ⟨hmem, bne_iff_ne.mpr hne⟩
      · intro hf
        exact absurd hf hgood

end Wary

/-! ## Locks -/

namespace Latched

variable {held held' : List (Lock × Nat)} {granted granted' : List Lock}

/-- Only locks of the root count. -/
theorem congr (h : Latched busy epoch held granted)
    (hheld : ∀ e, Lock.root e ∈ held'.map (·.1) ↔ Lock.root e ∈ held.map (·.1))
    (hgranted : ∀ e, granted'.count (Lock.root e) = granted.count (Lock.root e)) :
    Latched busy epoch held' granted' := by
  have hmem (e : Nat) : Lock.root e ∈ granted' ↔ Lock.root e ∈ granted := by
    rw [← List.count_pos_iff, ← List.count_pos_iff, hgranted]
  refine ⟨fun e he => h.current e ((hheld e).mp he), fun e he => h.handed e ((hmem e).mp he),
    fun hb => ?_, fun hb => ?_⟩
  · rw [hheld, hmem]
    exact h.taken hb
  · rw [hgranted, h.free hb]
    simp only [hheld]

/-- A lock that nobody holds is free. -/
theorem idle (h : Latched busy epoch held granted) (hkey : Lock.root epoch ∉ held.map (·.1)) :
    busy = false ∧ Lock.root epoch ∉ granted := by
  have hfree : busy = false := by
    cases busy with
    | false => rfl
    | true => exact absurd (h.taken rfl).1 hkey
  have hcount := h.free hfree
  rw [if_neg hkey, List.count_eq_zero] at hcount
  exact ⟨hfree, hcount⟩

/-- While nobody holds the lock of the root, another epoch may begin. -/
theorem begin (h : Latched busy epoch held granted) (hkey : Lock.root epoch ∉ held.map (·.1))
    (next : Nat) : Latched false next held granted := by
  have hheld (e : Nat) : Lock.root e ∉ held.map (·.1) := fun he => hkey (h.current e he ▸ he)
  have hgranted (e : Nat) : Lock.root e ∉ granted := fun he =>
    (h.idle hkey).2 (h.handed e he ▸ he)
  refine ⟨fun e he => absurd he (hheld e), fun e he => absurd he (hgranted e), nofun, fun _ => ?_⟩
  rw [if_neg (hheld next), List.count_eq_zero.mpr (hgranted next)]

/-- A lock that nobody holds is taken. -/
theorem take (h : Latched busy epoch held granted) (hkey : Lock.root epoch ∉ held.map (·.1))
    (n : Nat) : busy = false ∧ Latched true epoch (held ++ [(.root epoch, n)]) granted := by
  obtain ⟨hfree, hcount⟩ := h.idle hkey
  refine ⟨hfree, fun e he => ?_, h.handed, fun _ => ⟨?_, hcount⟩, nofun⟩
  · rw [List.map_append, List.mem_append] at he
    rcases he with he | he
    · exact h.current e he
    · exact Lock.root.inj (List.mem_singleton.mp he)
  · rw [List.map_append]
    exact List.mem_append_right _ (List.mem_singleton_self _)

/-- A lock that was handed over is taken. -/
theorem receive {e : Nat} (h : Latched busy epoch held granted) (hkey : Lock.root e ∈ granted) :
    busy = false ∧ e = epoch ∧ Latched true epoch held (granted.erase (.root e)) := by
  obtain rfl := h.handed e hkey
  have hfree : busy = false := by
    cases busy with
    | false => rfl
    | true => exact absurd hkey (h.taken rfl).2
  have hcount := h.free hfree
  have hpos := List.count_pos_iff.mpr hkey
  split at hcount
  · next hheld =>
    refine ⟨hfree, rfl, h.current, fun d hd => h.handed d (List.mem_of_mem_erase hd),
      fun _ => ⟨hheld, ?_⟩, nofun⟩
    rw [← List.count_eq_zero, List.count_erase_self, hcount]
  · omega

/-- A lock that is given up is free, or handed over to the next. -/
theorem giveUp (h : Latched true epoch held granted) {n : Nat} :
    Latched false epoch (Storage.setWaiters held (.root epoch) n) (granted ++ [.root epoch]) ∧
      Latched false epoch (held.filter (·.1 != .root epoch)) granted := by
  obtain ⟨hheld, hgranted⟩ := h.taken rfl
  constructor
  · refine ⟨?_, fun e he => ?_, nofun, fun _ => ?_⟩
    · rw [Storage.keys_setWaiters]
      exact h.current
    · rcases List.mem_append.mp he with he | he
      · exact h.handed e he
      · exact Lock.root.inj (List.mem_singleton.mp he)
    · rw [Storage.keys_setWaiters, if_pos hheld, List.count_append, List.count_eq_zero.mpr hgranted]
      simp
  · have hout : Lock.root epoch ∉ (held.filter (·.1 != .root epoch)).map (·.1) := by
      simp
    refine ⟨fun e he => h.current e ?_, h.handed, nofun, fun _ => ?_⟩
    · exact List.filter_sublist.map _ |>.subset he
    · rw [if_neg hout, List.count_eq_zero.mpr hgranted]

end Latched

/-! ## Loading -/

namespace Between

theorem ofWary {reading : Option Nat} {t : Storage} (h : Between N reading s)
    (ht : Wary N s.store.epoch s.store.root reading.isSome t) : Between N reading t := by
  refine ⟨?_, fun epoch hr => ?_⟩
  · rw [ht.inMemory, ht.epoch]
    exact ht
  · rw [ht.inMemory, ht.epoch]
    exact h.2 epoch hr

/-- What leaves the root in memory alone and stays wary keeps what holds between activities. -/
theorem keepsNow {α : Type} {x : Action Storage α}
    (h : ∀ epoch root, KeepsNow (Wary N epoch root) x) : KeepsNow (Between N) x :=
  fun _ s hs => hs.ofWary (h s.store.epoch s.store.root _ s hs.1)

/-- The locks may change in a way that keeps the lock of the root in order. -/
theorem line {reading : Option Nat} {held : List (Lock × Nat)} {granted : List Lock}
    (h : Between N reading s) (hl : Latched reading.isSome s.store.epoch held granted) :
    Between N reading { s with store := { s.store with held := held, granted := granted } } :=
  ⟨h.1.line hl, h.2⟩

/-- Somebody joins the line for a lock, or the line gets shorter. -/
theorem setWaiters {reading : Option Nat} (h : Between N reading s) (key : Lock) (n : Nat) :
    Between N reading { s with store := { s.store with
      held := Storage.setWaiters s.store.held key n } } :=
  h.line (h.1.latched.congr (fun e => by rw [Storage.keys_setWaiters]) fun e => rfl)

theorem leaveLine {reading : Option Nat} (h : Between N reading s) (key : Lock) :
    Between N reading { s with store := Storage.leaveLine key s.store } := by
  unfold Storage.leaveLine
  split
  · exact h.setWaiters key _
  · exact h

/-- Nobody reads the root. -/
theorem idle (h : Wary N s.store.epoch s.store.root false s) : Between N none s := ⟨h, nofun⟩

/-- The lock of the root is given up. -/
theorem release (h : Wary N s.store.epoch s.store.root true s) :
    (exec (Storage.release (.root s.store.epoch)) s).2.store.root = s.store.root ∧
      Between N none (exec (Storage.release (.root s.store.epoch)) s).2 := by
  unfold Storage.release
  rw [Storage.exec_onStore]
  dsimp only
  split
  · exact ⟨rfl, idle { h with latched := h.latched.giveUp.1, fit := fun ha => { h.fit ha with } }⟩
  · exact ⟨rfl, idle { h with
      latched := (h.latched.giveUp (n := 0)).2, fit := fun ha => { h.fit ha with } }⟩

/-- Who holds the lock of the root has done its work and gives it up. -/
theorem rests_release {r : Except Failure Root} (h : Wary N s.store.epoch s.store.root true s)
    (hr : ∀ a, r = .ok a → s.store.root.isSome = true) {x : Activity Storage Root} {t : Storage}
    (hx : x t = .done s r) :
    Rests (Between N) (fun _ t => t.store.root.isSome = true) none
      (x.ensuring (Storage.release (.root s.store.epoch)) t) := by
  obtain ⟨hroot, hidle⟩ := release h
  unfold Activity.ensuring
  rw [hx]
  refine Rests.done hidle fun a ha => ?_
  have hsome : (exec (Storage.release (.root s.store.epoch)) s).2.store.root.isSome = true := by
    rw [hroot]
    exact hr a ha
  exact hsome

/-- Who holds the lock of the root reads it if it is missing, and then gives up the lock. -/
theorem readRootOnce (h : Wary N s.store.epoch s.store.root true s) :
    Rests (Between N) (fun _ t => t.store.root.isSome = true) none
      (Storage.readRootOnce.ensuring (Storage.release (.root s.store.epoch)) s) := by
  cases hroot : s.store.root with
  | some r =>
    refine rests_release h (fun _ _ => ?_) (Storage.readRootOnce_some hroot)
    rw [hroot]
    rfl
  | none =>
    unfold Activity.ensuring
    rw [Storage.readRootOnce_none hroot, Storage.readRoot_eq]
    refine Rests.holds (k := s.store.epoch) ⟨h, fun e he => ⟨hroot, Option.some.inj he⟩⟩ ?_
    intro g t u ht hu
    obtain rfl := Option.some.inj hu
    obtain ⟨hwary, hmissing⟩ := ht
    obtain ⟨hnone, hepoch⟩ := hmissing _ rfl
    rw [← hepoch]
    cases g with
    | cancel =>
      exact rests_release (r := .error .cancelled) (x := fun t => .done t (.error .cancelled)) hwary
        nofun rfl
    | proceed =>
      rw [hnone] at hwary
      rw [h.rootName]
      have hcalls : (t.shelf.read N.rootName).2.calls =
          .read N.rootName (t.shelf.read N.rootName).1 :: t.shelf.calls := rfl
      obtain ⟨htaken, hsome⟩ := hwary.readRoot.takeRoot hcalls
      dsimp only
      generalize exec (Storage.takeRoot (t.shelf.read N.rootName).1)
        { t with shelf := (t.shelf.read N.rootName).2 } = taken at htaken hsome ⊢
      have hafter := htaken.epoch
      rw [← hafter] at htaken ⊢
      exact rests_release (x := fun _ => .done taken.2 taken.1) (t := t) htaken hsome rfl

theorem load : Gives (Between N) (fun _ t => t.store.root.isSome = true) Storage.load := by
  intro reading s hs
  cases hroot : s.store.root with
  | some r =>
    rw [Storage.load_some hroot]
    refine Rests.done hs fun _ _ => ?_
    rw [hroot]
    rfl
  | none =>
    rw [Storage.load_none hroot]
    change Rests _ _ _ ((Storage.acquire _ s).bind _)
    cases hline : Storage.waitersOf? s.store.held (.root s.store.epoch) with
    | none =>
      have hfree : Lock.root s.store.epoch ∉ s.store.held.map (·.1) := by
        rw [← Storage.waitersOf?_isSome, hline]
        decide
      obtain ⟨hnone, hl⟩ := hs.1.latched.take hfree 0
      obtain rfl : reading = none := by
        cases reading with
        | none => rfl
        | some epoch => contradiction
      rw [Storage.acquire_free hline]
      exact readRootOnce (hs.1.line (hs.1.epoch ▸ hl))
    | some n =>
      rw [Storage.acquire_held hline]
      refine Rests.waits (hs.setWaiters _ _) fun g f t u ht hu => ?_
      cases g with
      | cancel =>
        obtain rfl := Option.some.inj hu
        exact Rests.done (ht.leaveLine _) nofun
      | proceed =>
        obtain ⟨hkey, rfl⟩ := wake_lock hu
        obtain ⟨hf, he, hl⟩ := ht.1.latched.receive hkey
        obtain rfl : f = none := by
          cases f with
          | none => rfl
          | some epoch => contradiction
        rw [he] at hl ⊢
        exact readRootOnce (ht.1.line hl)

/-! ### Other locks -/

theorem acquire_chat (e : Nat) (chat : String) :
    Keeps (Between N) (Storage.acquire (.chat e chat)) := by
  intro reading s hs
  cases hline : Storage.waitersOf? s.store.held (.chat e chat) with
  | none =>
    rw [Storage.acquire_free hline]
    refine Rests.done (hs.line (hs.1.latched.congr (fun d => ?_) fun d => rfl)) fun _ _ => trivial
    simp
  | some n =>
    rw [Storage.acquire_held hline]
    refine Rests.waits (hs.setWaiters _ _) fun g f t u ht hu => ?_
    cases g with
    | cancel =>
      obtain rfl := Option.some.inj hu
      exact Rests.done (ht.leaveLine _) nofun
    | proceed =>
      obtain ⟨hkey, rfl⟩ := wake_lock hu
      refine Rests.done (ht.line (ht.1.latched.congr (fun d => Iff.rfl) fun d => ?_)) fun _ _ => trivial
      have hne : Lock.root d ≠ Lock.chat e chat := nofun
      exact List.count_erase_of_ne hne

theorem release_chat (e : Nat) (chat : String) :
    KeepsNow (Between N) (Storage.release (.chat e chat)) := by
  intro reading s hs
  unfold Storage.release
  rw [Storage.exec_onStore]
  dsimp only
  split
  · refine hs.line (hs.1.latched.congr (fun d => by rw [Storage.keys_setWaiters]) fun d => ?_)
    rw [List.count_append, List.count_singleton]
    simp
  · refine hs.line (hs.1.latched.congr (fun d => ?_) fun d => rfl)
    simp only [List.mem_map, List.mem_filter, bne_iff_ne]
    constructor
    · rintro ⟨h, ⟨hmem, _⟩, hkey⟩
      exact ⟨h, hmem, hkey⟩
    · rintro ⟨h, hmem, hkey⟩
      exact ⟨h, ⟨hmem, by rw [hkey]; nofun⟩, hkey⟩

theorem readChat (hc : N.used chat) (r : Root) : Keeps (Between N) (Storage.readChat chat r) := by
  intro reading s hs
  rw [Storage.readChat_eq]
  refine Rests.waits hs fun g f t u ht hu => ?_
  obtain rfl := Option.some.inj hu
  cases g with
  | cancel => exact Rests.done ht nofun
  | proceed =>
    rw [hs.1.valuesStart]
    exact Rests.done (ht.ofWary (ht.1.takeChat hc r)) fun _ _ => trivial

theorem loadValues (hc : N.used chat) : Keeps (Between N) (Storage.loadValues chat) := by
  unfold Storage.loadValues
  refine Keeps.getThen fun s => ?_
  split
  · exact .pure _
  · refine load.keeps.bind fun root => Keeps.getThen fun s => ?_
    refine (acquire_chat _ chat).bind fun _ => ?_
    refine Keeps.ensuring ?_ (release_chat _ chat)
    refine Keeps.getThen fun s => ?_
    split
    · exact .pure _
    · exact readChat hc root

theorem changeRoot (f : Root → Root) : Keeps (Between N) (Storage.changeRoot f) := by
  refine load.bind fun reading root s hs hsome => ?_
  obtain rfl : reading = none := by
    cases reading with
    | none => rfl
    | some epoch =>
      rw [(hs.2 epoch rfl).1] at hsome
      contradiction
  have hmarked (ha : N.Admits s.shelf.calls) (hf : N.Failing N.rootName s.shelf.calls) :
      s.store.rootDegraded = true := by
    refine ((hs.1.fit ha).root hf).resolve_left fun hnone => ?_
    rw [hnone] at hsome
    contradiction
  exact Rests.done (idle (hs.1.setRoot hmarked _).quiet) fun _ _ => trivial

theorem setValue (hc : N.used chat) (id : String) (v : Value) :
    Keeps (Between N) (Storage.setValue id chat v) :=
  .setValue (loadValues hc)
    (fun _ _ _ h _ => h.ofWary (h.1.setValues (fun _ => hc) _))
    (keepsNow fun _ _ => Wary.saveValuesSoon chat)

theorem amend (hc : N.used chat) (id : String) (v : Value) :
    KeepsNow (Between N) (Storage.onStore (·.amend id chat v)) :=
  keepsNow fun _ _ => .amend fun _ _ _ h _ => h.setValues (fun _ => hc) _

theorem pieces : Pieces (.ofChats N.used) (Between N) where
  newId kind n := keepsNow fun _ _ => Wary.newId kind n
  load := load.keeps
  changeRoot _ := changeRoot
  save _ := keepsNow fun _ _ => Wary.writing.save trivial
  saveSoon _ := keepsNow fun _ _ => Wary.saveSoon
  removeValues _ id := keepsNow fun _ _ => Wary.removeValues id
  loadValues := loadValues
  amend hc := amend hc _
  setValue hc _ := setValue hc _
  saveValues _ := keepsNow fun _ _ => Wary.writing.saveValues _ trivial
  saveValuesSoon _ := keepsNow fun _ _ => Wary.saveValuesSoon _
  flush := keepsNow fun _ _ => Wary.writing.flush
  close := keepsNow fun _ _ => Wary.writing.close

end Between

end TagLedger
