import TagLedger.Proofs.Operations

/-!
# What reading a chat gives

With the root in memory, a chat is served with what memory holds, or with what its document holds of
variables that are not gone, or with nothing if the document cannot be read. All of that is a
function of the storage, and so is what is in memory afterwards.

    ended (loadValues chat) s = (.ok (s.loaded r chat).1, ..)        (ended_loadValues_eq)
    chat is in memory afterwards with what it was served with        (cached?_looked)
-/

namespace TagLedger

/-! ## In memory -/

namespace Store

/-- Values of the variable are dropped when a chat is read. -/
def isGone (s : Store) (r : Root) (id : String) : Bool :=
  s.removed.contains id || (!s.rootDegraded && (Json.find? r.definitions id).isNone)

/-- The document of a chat could not be read. -/
def marked (s : Store) (chat : String) : Store :=
  { s with
    degraded := if s.degraded.contains chat then s.degraded else s.degraded ++ [chat]
    values := if (s.cached? chat).isSome then s.values else s.values ++ [(chat, [])] }

/-- Values of a chat came from its document. -/
def received (s : Store) (chat : String) (vs : ChatValues) : Store :=
  { s.setValues chat vs with degraded := s.degraded.filter (· != chat) }

/-- A chat has changed and waits to be written. -/
def soon (s : Store) (chat : String) (time : Nat) : Store :=
  { s.markDirty chat with valuesTimer := some (time + s.debounce) }

variable {s : Store} {chat other : String}

theorem cached?_setValues (s : Store) (chat : String) (vs : ChatValues) (other : String) :
    (s.setValues chat vs).cached? other = if chat = other then some vs else s.cached? other :=
  Json.find?_insert s.values chat vs other

theorem isDegraded_iff : s.isDegraded chat = true ↔ chat ∈ s.degraded := by
  unfold isDegraded
  rw [List.contains_iff_mem]

theorem usable?_of_not_degraded (h : s.isDegraded chat = false) :
    s.usable? chat = s.cached? chat := by
  unfold usable?
  rw [h]
  rfl

theorem usable?_of_degraded (h : s.isDegraded chat = true) : s.usable? chat = none := by
  unfold usable?
  rw [if_pos h]

theorem not_degraded_of_usable {vs : ChatValues} (h : s.usable? chat = some vs) :
    s.isDegraded chat = false := by
  cases hd : s.isDegraded chat with
  | true =>
    rw [usable?_of_degraded hd] at h
    contradiction
  | false => rfl

/-- A chat that can be written is served with what it was given. -/
theorem usable?_soon (h : s.isDegraded chat = false) (vs : ChatValues) (time : Nat) :
    ((s.setValues chat vs).soon chat time).usable? chat = some vs :=
  (usable?_of_not_degraded (s := (s.setValues chat vs).soon chat time) h).trans
    ((cached?_setValues s chat vs chat).trans (if_pos rfl))

/-- Values of a chat make no difference to the other chats. -/
theorem usable?_setValues_other {other : String} (hne : chat ≠ other) (vs : ChatValues) :
    (s.setValues chat vs).usable? other = s.usable? other :=
  congrArg (fun x => if s.isDegraded other then none else x)
    ((cached?_setValues s chat vs other).trans (if_neg hne))

/-- A chat that could not be read is served with what was in memory of it, or with nothing. -/
theorem cached?_marked (s : Store) (chat other : String) : (s.marked chat).cached? other =
    if chat = other then some ((s.cached? chat).getD []) else s.cached? other := by
  unfold marked
  change Json.find? (if (s.cached? chat).isSome then s.values else s.values ++ [(chat, [])]) other = _
  cases hc : s.cached? chat with
  | some vs =>
    rw [Option.isSome_some, if_pos rfl, Option.getD_some]
    split
    · next he => exact he ▸ hc
    · rfl
  | none =>
    have hout : chat ∉ Json.keys s.values := Json.find?_eq_none.mp hc
    rw [Option.isSome_none, if_neg (by decide), ← Json.insert_of_not_mem hout,
      Json.find?_insert, Option.getD_none]
    rfl

theorem isDegraded_marked (s : Store) (chat other : String) :
    (s.marked chat).isDegraded other = (s.isDegraded other || chat == other) := by
  rw [Bool.eq_iff_iff, Bool.or_eq_true, isDegraded_iff, isDegraded_iff, beq_iff_eq]
  unfold marked
  dsimp only
  split
  · next h =>
    rw [List.contains_iff_mem] at h
    exact ⟨Or.inl, fun hc => hc.elim id fun e => e ▸ h⟩
  · rw [List.mem_append, List.mem_singleton, eq_comm (a := other)]

theorem isDegraded_received (s : Store) (chat : String) (vs : ChatValues) (other : String) :
    (s.received chat vs).isDegraded other = (s.isDegraded other && chat != other) := by
  rw [Bool.eq_iff_iff, Bool.and_eq_true, isDegraded_iff, isDegraded_iff, bne_iff_ne]
  unfold received
  rw [List.mem_filter, bne_iff_ne, ne_comm]

end Store

namespace Storage

variable {s : Storage} {r : Root} {chat other : String}

/-! ## Answers of the shelf -/

/-- A chat has new values, and waits to be written. -/
def stored (s : Storage) (chat : String) (vs : ChatValues) : Storage :=
  { s with store := (s.store.setValues chat vs).soon chat s.clock.elapsed }

/-- The raw values in an answer of the shelf, if it is of use. -/
def rawOf? : Except StorageFault (Option String) → Option (List (String × Json))
  | .error _ => none
  | .ok text => rawValues? text

theorem find?_of_read {shelf : Shelf} {name text : String}
    (h : (shelf.read name).1 = .ok (some text)) : shelf.find? name = some text := by
  unfold Shelf.read at h
  dsimp only at h
  split at h
  · cases h
  · exact Except.ok.inj h

theorem rawValues?_of_rawOf? {shelf : Shelf} {name : String} {raw : List (String × Json)}
    (h : rawOf? (shelf.read name).1 = some raw) : rawValues? (shelf.find? name) = some raw := by
  unfold Shelf.read at h
  dsimp only at h
  split at h
  · cases h
  · exact h

/-- What is served of the values in a document. -/
def kept (s : Storage) (r : Root) (raw : List (String × Json)) : ChatValues :=
  (readValues ⟨s.clock.now, false⟩ raw).filter fun v => !s.store.isGone r v.1

/-- Some of the values in a document are dropped. -/
def drops (s : Storage) (r : Root) (raw : List (String × Json)) : Bool :=
  (readValues ⟨s.clock.now, false⟩ raw).any fun v => s.store.isGone r v.1

/-- Where nothing is dropped, everything is served. -/
theorem kept_of_drops {raw : List (String × Json)} (h : s.drops r raw = false) :
    s.kept r raw = readValues ⟨s.clock.now, false⟩ raw := by
  refine List.filter_eq_self.mpr fun v hv => ?_
  rw [Bool.not_eq_true']
  by_contra hgone
  rw [Bool.not_eq_false] at hgone
  have hany : s.drops r raw = true := List.any_eq_true.mpr ⟨v, hv, hgone⟩
  rw [h] at hany
  contradiction

/-- What a chat is served with if its document gave `answer`, and what that leaves. -/
def taken (s : Storage) (r : Root) (chat : String)
    (answer : Except StorageFault (Option String)) : ChatValues × Storage :=
  match rawOf? answer with
  | none => ((s.store.cached? chat).getD [], { s with store := s.store.marked chat })
  | some raw =>
    let store := s.store.received chat (s.kept r raw)
    (s.kept r raw,
      { s with store := if s.drops r raw then store.soon chat s.clock.elapsed else store })

/-- What a chat is served with that is read from a document, and what that leaves. -/
def looked (s : Storage) (r : Root) (chat name : String) : ChatValues × Storage :=
  { s with shelf := (s.shelf.read name).2 }.taken r chat (s.shelf.read name).1

/-- What a chat is served with, and what that leaves. -/
def loaded (s : Storage) (r : Root) (chat : String) : ChatValues × Storage :=
  match s.store.usable? chat with
  | some vs => (vs, s)
  | none => s.looked r chat (Store.valuesName s.store.valuesStart chat)

/-- What a chat is served with. -/
def serves (s : Storage) (r : Root) (chat : String) : ChatValues :=
  match s.store.usable? chat with
  | some vs => vs
  | none =>
    match rawOf? (s.shelf.read (Store.valuesName s.store.valuesStart chat)).1 with
    | none => (s.store.cached? chat).getD []
    | some raw => s.kept r raw

theorem serves_usable {vs : ChatValues} (h : s.store.usable? chat = some vs) (r : Root) :
    s.serves r chat = vs := by
  unfold serves
  rw [h]

theorem loaded_usable {vs : ChatValues} (h : s.store.usable? chat = some vs) (r : Root) :
    s.loaded r chat = (vs, s) := by
  unfold loaded
  rw [h]

theorem loaded_unusable (h : s.store.usable? chat = none) (r : Root) :
    s.loaded r chat = s.looked r chat (Store.valuesName s.store.valuesStart chat) := by
  unfold loaded
  rw [h]

theorem loaded_fst (s : Storage) (r : Root) (chat : String) :
    (s.loaded r chat).1 = s.serves r chat := by
  unfold loaded serves
  cases s.store.usable? chat with
  | some vs => rfl
  | none =>
    unfold looked taken
    dsimp only
    cases rawOf? (s.shelf.read (Store.valuesName s.store.valuesStart chat)).1 <;> rfl

theorem exec_takeChat_eq (chat : String) (root : Root)
    (answer : Except StorageFault (Option String)) (s : Storage) :
    exec (takeChat chat root answer) s =
      (.ok (s.taken (s.store.root.getD root) chat answer).1,
        (s.taken (s.store.root.getD root) chat answer).2) := by
  have hmarked : exec (degradeChat chat) s =
      (.ok ((s.store.cached? chat).getD []), { s with store := s.store.marked chat }) := by
    unfold degradeChat
    rw [exec_bind, exec_onStore]
    dsimp only
    rw [exec_bind, exec_get]
    dsimp only
    rw [exec_pure]
    change (Except.ok (((s.store.marked chat).cached? chat).getD []), _) = _
    rw [Store.cached?_marked, if_pos rfl]
    rfl
  cases answer with
  | error e => exact hmarked
  | ok text =>
    unfold taken
    change _ = ((Except.ok (match rawValues? text with | none => _ | some raw => _ :
      ChatValues × Storage).1, _) : Except Failure ChatValues × Storage)
    cases hraw : rawValues? text with
    | none =>
      unfold takeChat
      simp only [rawOf?, hraw]
      exact hmarked
    | some raw =>
      rw [exec_takeChat_sweep hraw rfl]
      simp only [rawOf?, hraw]
      unfold sweep
      rw [exec_bind, exec_get]
      dsimp only
      change exec (if s.drops (s.store.root.getD root) raw then _ else _) _ = _
      cases hdrops : s.drops (s.store.root.getD root) raw with
      | true =>
        rw [if_pos rfl, if_pos rfl, exec_bind, exec_onStore]
        dsimp only
        refine Eq.trans (b := (.ok (s.kept (s.store.root.getD root) raw), _)) rfl ?_
        unfold Store.received Store.setValues
        dsimp only
        rw [Json.insert_insert]
        rfl
      | false =>
        rw [if_neg (by decide), if_neg (by decide), exec_pure, ← kept_of_drops hdrops]
        rfl

/-! ## What is taken over -/

/-- Only values, marks, dirt and the timer of values change, and the shelf was asked. -/
theorem looked_frame (s : Storage) (r : Root) (chat name : String) :
    ∃ values degraded dirty valuesTimer, (s.looked r chat name).2 =
      { s with
        store := { s.store with
          values := values, degraded := degraded, dirty := dirty, valuesTimer := valuesTimer }
        shelf := (s.shelf.read name).2 } := by
  unfold looked taken
  split
  · exact ⟨_, _, _, _, rfl⟩
  · dsimp only
    split
    · exact ⟨_, _, _, _, rfl⟩
    · exact ⟨_, _, _, _, rfl⟩

/-- The chat is in memory with what it was served with, and other chats stay as they were. -/
theorem cached?_looked (s : Storage) (r : Root) (chat name other : String) :
    (s.looked r chat name).2.store.cached? other =
      if chat = other then some (s.looked r chat name).1 else s.store.cached? other := by
  unfold looked taken
  split
  · exact Store.cached?_marked s.store chat other
  · next raw _ =>
    have hset := Store.cached?_setValues s.store chat (s.kept r raw) other
    dsimp only
    split
    · exact hset
    · exact hset

theorem isDegraded_looked (s : Storage) (r : Root) (chat name other : String) :
    (s.looked r chat name).2.store.isDegraded other =
      if chat = other then (rawOf? (s.shelf.read name).1).isNone else s.store.isDegraded other := by
  unfold looked taken
  split
  · next hraw =>
    refine (Store.isDegraded_marked s.store chat other).trans ?_
    rw [hraw]
    by_cases he : chat = other
    · simp [he]
    · simp [he]
  · next raw hraw =>
    have hdegraded : (s.store.received chat (s.kept r raw)).isDegraded other =
        if chat = other then false else s.store.isDegraded other := by
      rw [Store.isDegraded_received]
      by_cases he : chat = other
      · simp [he]
      · simp [he]
    rw [hraw]
    dsimp only
    split
    · exact hdegraded
    · exact hdegraded

theorem usable?_looked_other (hne : chat ≠ other) (name : String) :
    (s.looked r chat name).2.store.usable? other = s.store.usable? other := by
  unfold Store.usable?
  rw [isDegraded_looked, cached?_looked, if_neg hne, if_neg hne]

/-- The chat can be used with what was kept of its document, if that was of use. -/
theorem usable?_looked (s : Storage) (r : Root) (chat name : String) :
    (s.looked r chat name).2.store.usable? chat =
      (rawOf? (s.shelf.read name).1).map (s.kept r) := by
  unfold Store.usable?
  rw [isDegraded_looked, cached?_looked, if_pos rfl, if_pos rfl]
  unfold looked taken
  cases rawOf? (s.shelf.read name).1 <;> rfl

/-- Nothing but the chat that is read becomes dirty, and that only if values are dropped. -/
theorem mem_dirty_looked {name c : String} :
    c ∈ (s.looked r chat name).2.store.dirty ↔ c ∈ s.store.dirty ∨
      c = chat ∧ ∃ raw, rawOf? (s.shelf.read name).1 = some raw ∧ s.drops r raw = true := by
  unfold looked taken
  split
  · next hraw =>
    rw [hraw]
    exact ⟨Or.inl, fun h => h.elim id fun ⟨_, _, hnone, _⟩ => nomatch hnone⟩
  · next raw hraw =>
    rw [hraw]
    change c ∈ (if s.drops r raw then _ else _ : Store).dirty ↔ _
    split
    · next hdrops =>
      refine (Store.mem_markDirty (s := s.store.received chat (s.kept r raw)) c).trans ?_
      exact or_congr_right ⟨fun h => ⟨h, raw, rfl, hdrops⟩, fun h => h.1⟩
    · next hdrops =>
      refine ⟨Or.inl, fun h => h.elim id fun ⟨_, raw', hraw', hdrops'⟩ => ?_⟩
      obtain rfl := Option.some.inj hraw'
      exact absurd hdrops' hdrops

/-- Two storages serve a chat in the same way if they hold the same of it and get the same answer. -/
theorem serves_congr {t : Storage} {c : String} (husable : t.store.usable? c = s.store.usable? c)
    (hcached : t.store.cached? c = s.store.cached? c)
    (hstart : t.store.valuesStart = s.store.valuesStart)
    (hanswer : ∀ name, (t.shelf.read name).1 = (s.shelf.read name).1)
    (hkept : ∀ raw, t.kept r raw = s.kept r raw) : t.serves r c = s.serves r c := by
  unfold serves
  rw [husable, hcached, hstart, hanswer]
  cases s.store.usable? c with
  | some vs => rfl
  | none =>
    dsimp only
    cases rawOf? (s.shelf.read (Store.valuesName s.store.valuesStart c)).1 with
    | none => rfl
    | some raw => exact hkept raw

/-- To read a chat changes nothing for anybody, as long as the shelf gives the same answers. -/
theorem serves_looked (h : s.store.usable? chat = none) (r : Root) (c : String) :
    (s.looked r chat (Store.valuesName s.store.valuesStart chat)).2.serves r c =
      s.serves r c := by
  let name := Store.valuesName s.store.valuesStart chat
  have hserved : (s.looked r chat name).1 = s.serves r chat := by
    rw [← loaded_fst, loaded_unusable h]
  have husable := usable?_looked s r chat name
  have hcached := cached?_looked s r chat name
  have hother (hne : chat ≠ c) := usable?_looked_other (s := s) (r := r) hne
  obtain ⟨values, degraded, dirty, timer, hframe⟩ := looked_frame s r chat name
  have hanswer (n : String) : ((s.looked r chat name).2.shelf.read n).1 = (s.shelf.read n).1 := by
    rw [hframe]
    rfl
  have hstart : (s.looked r chat name).2.store.valuesStart = s.store.valuesStart := by
    rw [hframe]
  by_cases he : chat = c
  · subst he
    have hchat : (s.looked r chat name).2.store.cached? chat = some (s.serves r chat) := by
      rw [hcached, if_pos rfl, hserved]
    unfold serves
    rw [husable, hstart, hanswer, hchat, h]
    change (match (rawOf? (s.shelf.read name).1).map (s.kept r) with | some vs => vs | none => _) =
      (match rawOf? (s.shelf.read name).1 with | none => _ | some raw => _ : ChatValues)
    unfold serves
    rw [h]
    cases rawOf? (s.shelf.read name).1 <;> rfl
  · refine serves_congr (hother he name) ((hcached c).trans (if_neg he)) hstart hanswer
      fun raw => ?_
    rw [hframe]
    rfl

/-- What was served of a document belongs to variables that are not gone. -/
theorem not_gone_of_mem_kept {raw : List (String × Json)} {v : String × Value}
    (h : v ∈ s.kept r raw) : s.store.isGone r v.1 = false := by
  have hkept := (List.mem_filter.mp h).2
  rwa [Bool.not_eq_true'] at hkept

/-! ## Locks -/

/-- The storage with other locks. -/
def lined (s : Storage) (held : List (Lock × Nat)) (granted : List Lock) : Storage :=
  { s with store := { s.store with held := held, granted := granted } }

theorem ended_acquire (key : Lock) (s : Storage) :
    ∃ held granted, ended (acquire key) s = (.ok (), s.lined held granted) := by
  unfold ended
  cases hline : waitersOf? s.store.held key with
  | none =>
    rw [acquire_free hline]
    exact ⟨_, _, rfl⟩
  | some n =>
    rw [acquire_held hline]
    exact ⟨_, _, rfl⟩

theorem exec_release_eq (key : Lock) (s : Storage) :
    ∃ held granted, exec (release key) s = (.ok (), s.lined held granted) := by
  unfold release
  rw [exec_onStore]
  split
  · exact ⟨_, _, rfl⟩
  · exact ⟨_, _, rfl⟩

/-- Something is done while a lock is held, which changes no more than the locks. -/
theorem ended_holding_eq {α : Type} (key : Lock) (x : Activity Storage α) (s : Storage) :
    ∃ held granted held' granted', ended (holding key x) s =
      ((ended x (s.lined held granted)).1,
        (ended x (s.lined held granted)).2.lined held' granted') := by
  obtain ⟨held, granted, hacquire⟩ := ended_acquire key s
  obtain ⟨held', granted', hrelease⟩ := exec_release_eq key (ended x (s.lined held granted)).2
  refine ⟨held, granted, held', granted', ?_⟩
  unfold holding
  rw [ended_bind_ok hacquire, ended_ensuring, hrelease]

/-- What does not depend on locks can as well be done while one is held. -/
theorem ended_holding_lined {α : Type} {key : Lock} {x : Activity Storage α} {s t : Storage}
    {result : Except Failure α}
    (hx : ∀ held granted, ∃ held' granted',
      ended x (s.lined held granted) = (result, t.lined held' granted')) :
    ∃ held granted, ended (holding key x) s = (result, t.lined held granted) := by
  obtain ⟨held, granted, held', granted', hrun⟩ := ended_holding_eq key x s
  obtain ⟨_, _, hinner⟩ := hx held granted
  rw [hinner] at hrun
  exact ⟨held', granted', hrun⟩

/-! ## Loading -/

theorem taken_lined (s : Storage) (r : Root) (chat : String)
    (answer : Except StorageFault (Option String)) (held : List (Lock × Nat))
    (granted : List Lock) : (s.lined held granted).taken r chat answer =
      ((s.taken r chat answer).1, (s.taken r chat answer).2.lined held granted) := by
  unfold taken
  cases rawOf? answer with
  | none => rfl
  | some raw =>
    change (s.kept r raw, Storage.mk (if s.drops r raw then _ else _) _ _ _) = (_, _)
    dsimp only
    cases s.drops r raw <;> rfl

/-- To load the root the first time is to read it. -/
theorem ended_load_lined {t : Storage} {result : Except Failure Root} (hroot : s.store.root = none)
    (hx : ∀ held granted, exec (takeRoot (s.shelf.read s.store.rootName).1)
      (lined { s with shelf := (s.shelf.read s.store.rootName).2 } held granted) =
        (result, t.lined held granted)) :
    ∃ held granted, ended load s = (result, t.lined held granted) := by
  have hload : ended load s = ended (holding (.root s.store.epoch) readRootOnce) s := by
    unfold ended
    rw [load_none hroot]
  rw [hload]
  refine ended_holding_lined fun held granted => ⟨held, granted, ?_⟩
  have hnone : (s.lined held granted).store.root = none := hroot
  rw [← hx held granted, ended_readRootOnce hnone]
  exact ended_readRoot _

/-- A root of the current version is served as it was read. -/
theorem ended_load_current {text : String} (hroot : s.store.root = none)
    (hanswer : (s.shelf.read s.store.rootName).1 = .ok (some text))
    (hof : RootReading.ofText ⟨s.clock.now, false⟩ text = .root r none) :
    ∃ held granted, ended load s = (.ok r, lined { s with
      store := { s.store with root := some r }
      shelf := (s.shelf.read s.store.rootName).2 } held granted) := by
  refine ended_load_lined hroot fun held granted => ?_
  rw [hanswer]
  unfold takeRoot
  refine (exec_bind_ok (exec_context _) _).trans ?_
  dsimp only [lined]
  rw [hof]
  rfl

/-- To read a chat once, while its lock is held, gives what it is served with. -/
theorem ended_readOnce (hroot : s.store.root = some r) (chat : String) :
    ∃ held granted, ended (holding (.chat s.store.epoch chat) (readChatOnce chat r)) s =
      (.ok (s.loaded r chat).1, (s.loaded r chat).2.lined held granted) := by
  refine ended_holding_lined fun held granted => ⟨held, granted, ?_⟩
  unfold readChatOnce
  rw [ended_get_bind]
  cases husable : s.store.usable? chat with
  | some vs =>
    rw [loaded_usable husable]
    have hserved : (s.lined held granted).store.usable? chat = some vs := husable
    rw [hserved]
    rfl
  | none =>
    rw [loaded_unusable husable]
    have hmissing : (s.lined held granted).store.usable? chat = none := husable
    have hgetD : (s.lined held granted).store.root.getD r = r := by
      change s.store.root.getD r = r
      rw [hroot]
      rfl
    rw [hmissing]
    dsimp only
    rw [ended_readChat, exec_takeChat_eq]
    change (Except.ok (Storage.taken _ ((s.lined held granted).store.root.getD r) _ _).1, _) = _
    dsimp only
    rw [hgetD]
    have hlined := taken_lined { s with shelf :=
      (s.shelf.read (Store.valuesName s.store.valuesStart chat)).2 } r chat
      (s.shelf.read (Store.valuesName s.store.valuesStart chat)).1 held granted
    exact congrArg (fun p => (Except.ok p.1, p.2)) hlined

/-- With the root in memory, loading a chat gives what it is served with. -/
theorem ended_loadValues_eq (hroot : s.store.root = some r) (chat : String) :
    ∃ held granted, ended (loadValues chat) s =
      (.ok (s.loaded r chat).1, (s.loaded r chat).2.lined held granted) := by
  cases husable : s.store.usable? chat with
  | some vs =>
    rw [loaded_usable husable]
    exact ⟨_, _, ended_loadValues_usable husable⟩
  | none =>
    unfold loadValues
    rw [ended_get_bind, husable]
    dsimp only
    rw [ended_bind_ok (ended_load_some hroot), ended_get_bind]
    exact ended_readOnce hroot chat

/-- A chat that was loaded is in memory with what it was served with, and can be used unless its
document could not be read. -/
theorem loaded_cases (s : Storage) (r : Root) (chat : String) :
    (s.loaded r chat).2.store.usable? chat = some (s.loaded r chat).1 ∨
      s.store.usable? chat = none ∧
        rawOf? (s.shelf.read (Store.valuesName s.store.valuesStart chat)).1 = none ∧
        (s.loaded r chat).2.store.isDegraded chat = true ∧
        (s.loaded r chat).2.store.cached? chat = some (s.loaded r chat).1 := by
  cases hu : s.store.usable? chat with
  | some vs =>
    rw [loaded_usable hu]
    exact Or.inl hu
  | none =>
    rw [loaded_unusable hu]
    let name := Store.valuesName s.store.valuesStart chat
    have hcached : (s.looked r chat name).2.store.cached? chat =
        some (s.looked r chat name).1 :=
      (cached?_looked s r chat name chat).trans (if_pos rfl)
    have hmark : (s.looked r chat name).2.store.isDegraded chat =
        (rawOf? (s.shelf.read name).1).isNone :=
      (isDegraded_looked s r chat name chat).trans (if_pos rfl)
    cases hraw : rawOf? (s.shelf.read name).1 with
    | some raw =>
      rw [hraw] at hmark
      exact Or.inl ((Store.usable?_of_not_degraded hmark).trans hcached)
    | none =>
      rw [hraw] at hmark
      exact Or.inr ⟨rfl, rfl, hmark, hcached⟩

/-- What comes of setting a value in a chat that is served from memory. -/
theorem ended_setValue_usable {vs : ChatValues} (h : s.store.usable? chat = some vs) (id : String)
    (v : Value) : ended (setValue id chat v) s = (.ok (), s.stored chat (Json.insert vs id v)) :=
  congrArg Progress.finish (setValue_usable h id v)

theorem ended_editValue_usable {vs : ChatValues} (h : s.store.usable? chat = some vs)
    (id : String) (v : Value) :
    ended (editValue id chat v) s = (.ok (), s.stored chat (Json.insert vs id v)) :=
  congrArg Progress.finish
    ((editValue_eq (Store.not_degraded_of_usable h) id v).trans (setValue_usable h id v))

/-- In a chat that could not be read, a value that is not there is not set either. -/
theorem ended_editValue_refused {id : String} (hd : s.store.isDegraded chat = true)
    (hnone : s.store.value? id chat = none) (v : Value) :
    ended (editValue id chat v) s = (.error (.storage (.chatUnreadable chat)), s) := by
  have hamend : s.store.amend id chat v = s.store := by
    unfold Store.amend
    unfold Store.value? at hnone
    cases hc : s.store.cached? chat with
    | none => rfl
    | some vs =>
      rw [hc, Option.bind_some] at hnone
      simp only [hnone, Option.any_none]
      rfl
  have hstay : ended (.ofAction (onStore (·.amend id chat v))) s = (.ok (), s) := by
    rw [ended_ofAction, exec_onStore, hamend]
  have hrefused : ended (.ofAction (checkWritable chat)) s =
      (.error (.storage (.chatUnreadable chat)), s) := by
    rw [ended_ofAction, exec_checkWritable, if_pos hd]
  exact (ended_bind_ok hstay _).trans (ended_bind_error hrefused _)

theorem loadValues_answer (hroot : s.store.root = some r) (chat : String) :
    (ended (loadValues chat) s).1 = .ok (s.serves r chat) := by
  obtain ⟨held, granted, hrun⟩ := ended_loadValues_eq hroot chat
  rw [hrun, ← loaded_fst]

end Storage

/-! ### Chats that are used -/

namespace Naming.Covers

variable {N : Naming} {s : Storage} {chat : String} {vs : ChatValues}

theorem looked (h : N.Covers s) (hc : N.used chat) (r : Root)
    (name : String) : N.Covers (s.looked r chat name).2 := by
  have hcached := Storage.cached?_looked s r chat name
  obtain ⟨values, degraded, dirty, timer, hframe⟩ := Storage.looked_frame s r chat name
  refine ⟨?_, ?_, fun c vs hmem => ?_⟩
  · rw [hframe]
    exact h.rootName
  · rw [hframe]
    exact h.valuesStart
  · rw [hcached] at hmem
    split at hmem
    · next he => exact he ▸ hc
    · exact h.used c vs hmem

theorem setValues (h : N.Covers s) (hc : N.used chat) (vs : ChatValues) :
    N.Covers { s with store := s.store.setValues chat vs } := by
  refine ⟨h.rootName, h.valuesStart, fun c ws hmem => ?_⟩
  have hmem := (Store.cached?_setValues s.store chat vs c).symm.trans hmem
  split at hmem
  · next he => exact he ▸ hc
  · exact h.used c ws hmem

theorem stored (h : N.Covers s) (hu : s.store.usable? chat = some vs) (new : ChatValues) :
    N.Covers (s.stored chat new) := by
  rw [Store.usable?_of_not_degraded (Store.not_degraded_of_usable hu)] at hu
  exact { h.setValues (h.used chat vs hu) new with }

end Naming.Covers

/-! ## While others go on -/

/-- Taking over the values of an older root keeps what the values of each chat keep. -/
theorem KeepsNow.adopt {φ : Type} {I : φ → Storage → Prop} {chats : List (String × ChatValues)}
    (h : ∀ c ∈ chats, ∀ f s, I f s →
      I f { s with store := (s.store.setValues c.1 c.2).markDirty c.1 }) :
    KeepsNow I (Storage.adopt chats) := by
  intro f s hs
  unfold Storage.adopt
  rw [Storage.exec_onStore]
  induction chats generalizing s with
  | nil => exact hs
  | cons c chats ih =>
    exact ih (fun d hd => h d (List.mem_cons_of_mem c hd)) _ (h c List.mem_cons_self f s hs)

/-- A store may find this root: the standard one, or one that was read. -/
def Root.Found (r : Root) : Prop :=
  r = .standard ∨ ∃ ctx text moved, Storage.RootReading.ofText ctx text = .root r moved

/-- Taking over the document changes nothing, or leaves what a root that is found, the values that
came with it, and writing keep. -/
theorem Storage.takeRoot_leaves {J : Storage → Prop} {s : Storage}
    {answer : Except StorageFault (Option String)} (hwriting : KeepsWriting (Always J))
    (hset : ∀ r degraded dirty, r.Found → J { s with store := { s.store with
      root := some r, rootDegraded := degraded, rootDirty := dirty } })
    (hadopt : ∀ now text r chats, answer = .ok (some text) →
      RootReading.ofText ⟨now, false⟩ text = .root r (some chats) →
        KeepsNow (Always J) (adopt chats))
    (hmark : ∀ t, J t → J { t with store := { t.store with rootDirty := true } }) :
    (exec (takeRoot answer) s).2 = s ∨ J (exec (takeRoot answer) s).2 := by
  have hflush (r : Root) : KeepsNow (Always J) (flushQuietly >>= fun _ => rootOr r) :=
    hwriting.flushQuietly.bind fun _ => .rootOr r
  cases answer with
  | error e => exact Or.inr (hset .standard true s.store.rootDirty (Or.inl rfl))
  | ok text? =>
    cases text? with
    | none =>
      exact Or.inr (hflush .standard none _ (hset .standard s.store.rootDegraded true (Or.inl rfl)))
    | some text =>
      unfold takeRoot
      rw [exec_bind_ok (exec_context s)]
      split
      · exact Or.inr (hset .standard true s.store.rootDirty (Or.inl rfl))
      · exact Or.inl rfl
      · next r hof => exact Or.inr (hset r _ _ (Or.inr ⟨_, _, _, hof⟩))
      · next r chats hof =>
        have hall : KeepsNow (Always J) (do
            adopt chats
            onStore fun s => { s with rootDirty := true }
            flushQuietly
            rootOr r) := by
          refine (hadopt _ _ r chats rfl hof).bind fun _ => ?_
          exact KeepsNow.bind (x := onStore _) (fun _ _ h => hmark _ h) fun _ => hflush r
        exact Or.inr (hall none _ (hset r _ _ (Or.inr ⟨_, _, _, hof⟩)))

/-- Loading the root keeps what does not speak of locks, if taking over the document does. -/
theorem Gives.load {κ : Type} {I : Option κ → Storage → Prop} {Q : Root → Storage → Prop}
    (hI : ∀ f, Unlocked (I f)) (hQ : ∀ r, Unlocked (Q r))
    (hroot : ∀ f s r, I f s → s.store.root = some r → Q r s)
    (htake : ∀ f₀ s₀ f s, I f₀ s₀ → I f s →
      let read := s.shelf.read s₀.store.rootName
      let taken := exec (Storage.takeRoot read.1) { s with shelf := read.2 }
      I f taken.2 ∧ ∀ r, taken.1 = .ok r → Q r taken.2) : Gives I Q Storage.load := by
  have hread : Gives I Q Storage.readRoot := fun f₀ s₀ hs₀ => by
    rw [Storage.readRoot_eq]
    refine .waits hs₀ fun g f t u ht hu => ?_
    obtain rfl := Option.some.inj hu
    cases g with
    | cancel => exact .done ht nofun
    | proceed => exact .done (htake f₀ s₀ f t hs₀ ht).1 (htake f₀ s₀ f t hs₀ ht).2
  have honce : Gives I Q Storage.readRootOnce := fun f s hs => by
    cases hr : s.store.root with
    | some r =>
      rw [Storage.readRootOnce_some hr]
      exact .done hs fun a ha => Except.ok.inj ha ▸ hroot f s r hs hr
    | none =>
      rw [Storage.readRootOnce_none hr]
      exact hread f s hs
  intro f s hs
  cases hr : s.store.root with
  | some r =>
    rw [Storage.load_some hr]
    exact .done hs fun a ha => Except.ok.inj ha ▸ hroot f s r hs hr
  | none =>
    rw [Storage.load_none hr]
    exact Gives.holding hI hQ honce (.root s.store.epoch) f s hs

theorem Keeps.load {κ : Type} {I : Option κ → Storage → Prop} (hI : ∀ f, Unlocked (I f))
    (htake : ∀ f₀ s₀ f s, I f₀ s₀ → I f s →
      let read := s.shelf.read s₀.store.rootName
      I f (exec (Storage.takeRoot read.1) { s with shelf := read.2 }).2) :
    Keeps I Storage.load :=
  Gives.load hI (fun _ _ _ _ _ => trivial) (fun _ _ _ _ _ => trivial)
    fun f₀ s₀ f s hs₀ hs => ⟨htake f₀ s₀ f s hs₀ hs, fun _ _ => trivial⟩

/-- Loading a chat keeps what does not speak of locks, if loading the root does and taking over the
document does. -/
theorem Gives.loadValues {κ : Type} {I : Option κ → Storage → Prop}
    {Q : ChatValues → Storage → Prop} {chat : String} (hI : ∀ f, Unlocked (I f))
    (hQ : ∀ vs, Unlocked (Q vs)) (hload : Keeps I Storage.load)
    (husable : ∀ f s vs, I f s → s.store.usable? chat = some vs → Q vs s)
    (hlooked : ∀ f₀ s₀ f s root, I f₀ s₀ → I f s →
      let t := s.looked (s.store.root.getD root) chat (Store.valuesName s₀.store.valuesStart chat)
      I f t.2 ∧ Q t.1 t.2) : Gives I Q (Storage.loadValues chat) := by
  have hread (root : Root) : Gives I Q (Storage.readChat chat root) := fun f₀ s₀ hs₀ => by
    rw [Storage.readChat_eq]
    refine .waits hs₀ fun g f t u ht hu => ?_
    obtain rfl := Option.some.inj hu
    cases g with
    | cancel => exact .done ht nofun
    | proceed =>
      dsimp only
      rw [Storage.exec_takeChat_eq]
      have hlook := hlooked f₀ s₀ f t root hs₀ ht
      exact .done hlook.1 fun vs hvs => Except.ok.inj hvs ▸ hlook.2
  have hserve {k : Activity Storage ChatValues} (hk : Gives I Q k) : Gives I Q (do
      match (← get).store.usable? chat with
      | some vs => return vs
      | none => k) := fun f s hs => by
    change Rests I Q f ((match s.store.usable? chat with
      | some vs => pure vs | none => k : Activity Storage ChatValues) s)
    cases hvs : s.store.usable? chat with
    | some vs => exact .done hs fun a ha => Except.ok.inj ha ▸ husable f s vs hs hvs
    | none => exact hk f s hs
  refine hserve (Gives.bind hload fun f root s hs _ => ?_)
  exact Gives.holding hI hQ (hserve (hread root)) _ f s hs

/-! ## The root that was loaded -/

namespace Storage

variable {s : Storage} {r : Root} {chat : String}

/-- Writing does not change the root in memory. -/
theorem writing_root (r : Root) : KeepsWriting (Always fun s => s.store.root = some r) := by
  refine .ofAttempts (fun _ _ _ _ _ _ _ h => h) (fun _ s r' h _ _ _ => ?_) fun _ s c vs h _ _ _ => ?_
  · unfold attemptRoot
    dsimp only
    split <;> exact h
  · unfold attemptChat Store.markDirty
    dsimp only
    split <;> split <;> exact h

/-- The root that is taken over is in memory. -/
theorem root_of_takeRoot {answer : Except StorageFault (Option String)} {s t : Storage} {r : Root}
    (h : exec (takeRoot answer) s = (.ok r, t)) : t.store.root = some r := by
  have hflush {d : Root} {u : Storage} (hu : u.store.root = some d)
      (hrun : exec (flushQuietly >>= fun _ => rootOr d) u = (.ok r, t)) :
      t.store.root = some r := by
    have hkept := (writing_root d).flushQuietly none u hu
    rcases hflush : exec flushQuietly u with ⟨a, v⟩
    rw [hflush] at hkept
    rw [exec_bind, hflush] at hrun
    cases a with
    | error e => cases (Prod.mk.inj hrun).1
    | ok _ =>
      obtain ⟨hr, rfl⟩ := Prod.mk.inj hrun
      change v.store.root = some d at hkept
      rw [hkept] at hr ⊢
      exact congrArg some (Except.ok.inj hr)
  have hdegrade {u : Storage} (hrun : exec degradeRoot u = (.ok r, t)) : t.store.root = some r := by
    obtain ⟨hr, rfl⟩ := Prod.mk.inj hrun
    exact congrArg some (Except.ok.inj hr)
  unfold takeRoot at h
  cases answer with
  | error e => exact hdegrade h
  | ok text? =>
    cases text? with
    | none =>
      rw [exec_bind, exec_onStore] at h
      exact hflush rfl h
    | some text =>
      dsimp only at h
      rw [exec_bind, exec_context] at h
      dsimp only at h
      split at h
      · exact hdegrade h
      · cases (Prod.mk.inj h).1
      · obtain ⟨hr, rfl⟩ := Prod.mk.inj h
        exact congrArg some (Except.ok.inj hr)
      · next d chats _ =>
        rw [exec_bind, exec_onStore] at h
        dsimp only at h
        have hadopt : KeepsNow (Always fun s => s.store.root = some d) (adopt chats) :=
          .adopt fun _ _ _ _ hs => hs
        have hkept := hadopt none { s with store := { s.store with root := some d } } rfl
        rcases hrun : exec (adopt chats) { s with store := { s.store with root := some d } } with
          ⟨a, v⟩
        rw [hrun] at hkept
        rw [exec_bind, hrun] at h
        cases a with
        | error e => cases (Prod.mk.inj h).1
        | ok _ =>
          dsimp only at h
          rw [exec_bind, exec_onStore] at h
          exact hflush (u := { v with store := { v.store with rootDirty := true } }) hkept h

theorem root_of_load {s t : Storage} {r : Root} (h : ended load s = (.ok r, t)) :
    t.store.root = some r := by
  have hload : Gives (Always fun _ => True) (fun r t => t.store.root = some r) load :=
    .load (fun _ _ _ _ _ => trivial) (fun _ _ _ _ hs => hs) (fun _ _ _ _ hr => hr)
      fun _ _ _ _ _ _ => ⟨trivial, fun _ hr => root_of_takeRoot (Prod.ext hr rfl)⟩
  have hend := (hload.finish (fun _ _ _ _ => trivial) (s := s) trivial).2 r
  rw [h] at hend
  exact hend rfl

/-- Before a chat is read, the root is. -/
theorem ended_loadValues_of_load {t : Storage} (husable : s.store.usable? chat = none)
    (hload : ended load s = (.ok r, t)) : ∃ held granted, ended (loadValues chat) s =
      (.ok (t.loaded r chat).1, (t.loaded r chat).2.lined held granted) := by
  unfold loadValues
  rw [ended_get_bind, husable]
  dsimp only
  rw [ended_bind_ok hload, ended_get_bind]
  exact ended_readOnce (root_of_load hload) chat

theorem ended_loadValues_error {t : Storage} {e : Failure} (husable : s.store.usable? chat = none)
    (hload : ended load s = (.error e, t)) : ended (loadValues chat) s = (.error e, t) := by
  unfold loadValues
  rw [ended_get_bind, husable]
  exact ended_bind_error hload _

end Storage

end TagLedger
