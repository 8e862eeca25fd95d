import TagLedger.Proofs.Writing

/-!
# How documents are loaded

What the activities that load documents come to, case by case: served from memory, waiting for
somebody else who reads, or waiting for their turn to read. If every wait is answered at once, they
read what the shelf holds.

    ended (x >>= f) s = ended (f a) t           if x ends with a and leaves t      (ended_bind_ok)
    ended load s = exec (takeRoot _) _          if nobody holds a lock             (ended_load)
-/

namespace TagLedger

variable {σ τ α β : Type}

/-! ## Running to the end -/

/-- What an activity gives and what it leaves behind if every wait is answered at once. -/
def ended (x : Activity σ α) (s : σ) : Except Failure α × σ := (x s).finish

theorem ended_ofAction (x : Action σ α) (s : σ) : ended (.ofAction x) s = exec x s := rfl

theorem ended_bind (x : Activity σ α) (f : α → Activity σ β) (s : σ) :
    ended (x >>= f) s = match ended x s with
      | (.ok a, t) => ended (f a) t
      | (.error e, t) => (.error e, t) := Progress.finish_bind (x s) f

theorem ended_bind_ok {x : Activity σ α} {s t : σ} {a : α} (h : ended x s = (.ok a, t))
    (f : α → Activity σ β) : ended (x >>= f) s = ended (f a) t := by
  rw [ended_bind, h]

theorem ended_bind_error {x : Activity σ α} {s t : σ} {e : Failure}
    (h : ended x s = (.error e, t)) (f : α → Activity σ β) :
    ended (x >>= f) s = (.error e, t) := by
  rw [ended_bind, h]

theorem ended_bind_congr {x : Activity σ α} {s t : σ} (h : ended x t = ended x s)
    (f : α → Activity σ β) : ended (x >>= f) t = ended (x >>= f) s := by
  rw [ended_bind, ended_bind, h]

/-- What came of one thing after another came of the first, and then of the second. -/
theorem of_ended_bind {x : Activity σ α} {f : α → Activity σ β} {s u : σ} {b : β}
    (h : ended (x >>= f) s = (.ok b, u)) :
    ∃ a t, ended x s = (.ok a, t) ∧ ended (f a) t = (.ok b, u) := by
  rw [ended_bind] at h
  rcases hx : ended x s with ⟨a, t⟩
  rw [hx] at h
  cases a with
  | ok a => exact ⟨a, t, rfl, h⟩
  | error e => cases h

theorem get_bind (f : σ → Activity σ α) (s : σ) : (get >>= f) s = f s s := rfl

theorem ended_get_bind (f : σ → Activity σ α) (s : σ) : ended (get >>= f) s = ended (f s) s := rfl

theorem finish_attempt (p : Progress σ α) (f : Except Failure α → σ → Progress σ β) :
    (p.attempt f).finish = (f p.finish.1 p.finish.2).finish := by
  induction p with
  | done s r => rfl
  | waiting s w r ih => exact ih .proceed s

theorem ended_ensuring (x : Activity σ α) (last : Action σ Unit) (s : σ) :
    ended (x.ensuring last) s = match exec last (ended x s).2 with
      | (.ok _, t) => ((ended x s).1, t)
      | (.error e, t) => (.error e, t) := by
  unfold ended Activity.ensuring
  rw [finish_attempt]
  unfold exec
  rcases last.run.run (x s).finish.2 with ⟨r, t⟩
  cases r <;> rfl

theorem finish_zoom (get : τ → σ) (set : σ → τ → τ) (hget : ∀ s t, get (set s t) = s)
    (hset : ∀ s s' t, set s (set s' t) = set s t) (p : Progress σ α) (t : τ) :
    (p.zoom get set t).finish = (p.finish.1, set p.finish.2 t) := by
  induction p generalizing t with
  | done s r => rfl
  | waiting s w r ih =>
    change ((r .proceed (get (set s t))).zoom get set (set s t)).finish = _
    rw [ih, hget, hset]
    rfl

/-! ## Locks -/

namespace Storage

theorem keys_setWaiters (held : List (Lock × Nat)) (key : Lock) (n : Nat) :
    (setWaiters held key n).map (·.1) = held.map (·.1) := by
  unfold setWaiters
  rw [List.map_map]
  refine List.map_congr_left fun h _ => ?_
  dsimp only [Function.comp_apply]
  split
  · next hkey => exact (beq_iff_eq.mp hkey).symm
  · rfl

theorem waitersOf?_isSome {held : List (Lock × Nat)} {key : Lock} :
    (waitersOf? held key).isSome = true ↔ key ∈ held.map (·.1) := by
  unfold waitersOf?
  rw [Option.isSome_map, List.find?_isSome, List.mem_map]
  constructor
  · rintro ⟨h, hmem, hkey⟩
    exact ⟨h, hmem, beq_iff_eq.mp hkey⟩
  · rintro ⟨h, hmem, rfl⟩
    exact ⟨h, hmem, beq_self_eq_true _⟩

theorem acquire_free {key : Lock} {s : Storage} (h : waitersOf? s.store.held key = none) :
    acquire key s =
      .done { s with store := { s.store with held := s.store.held ++ [(key, 0)] } } (.ok ()) := by
  unfold acquire
  rw [get_bind, h]
  rfl

theorem acquire_held {key : Lock} {s : Storage} {n : Nat}
    (h : waitersOf? s.store.held key = some n) :
    acquire key s = .waiting
      { s with store := { s.store with held := setWaiters s.store.held key (n + 1) } } (.lock key)
      fun g t =>
        match g with
        | .proceed => .done t (.ok ())
        | .cancel => .done { t with store := leaveLine key t.store } (.error .cancelled) := by
  unfold acquire
  rw [get_bind, h]
  refine congrArg (Progress.waiting _ _) (funext fun g => funext fun t => ?_)
  cases g <;> rfl

theorem load_some {s : Storage} {r : Root} (h : s.store.root = some r) :
    load s = .done s (.ok r) := by
  unfold load
  rw [get_bind, h]
  rfl

theorem load_none {s : Storage} (h : s.store.root = none) :
    load s = holding (.root s.store.epoch) readRootOnce s := by
  unfold load
  rw [get_bind, h]
  rfl

theorem readRoot_eq (s : Storage) : readRoot s = .waiting s .turn fun g t =>
    match g with
    | .proceed =>
      let read := t.shelf.read s.store.rootName
      let taken := exec (takeRoot read.1) { t with shelf := read.2 }
      .done taken.2 taken.1
    | .cancel => .done t (.error .cancelled) := by
  unfold readRoot
  refine congrArg (Progress.waiting s .turn) (funext fun g => funext fun t => ?_)
  cases g <;> rfl

theorem readChat_eq (chat : String) (r : Root) (s : Storage) :
    readChat chat r s = .waiting s .turn fun g t =>
      match g with
      | .proceed =>
        let read := t.shelf.read (Store.valuesName s.store.valuesStart chat)
        let taken := exec (takeChat chat r read.1) { t with shelf := read.2 }
        .done taken.2 taken.1
      | .cancel => .done t (.error .cancelled) := by
  unfold readChat
  refine congrArg (Progress.waiting s .turn) (funext fun g => funext fun t => ?_)
  cases g <;> rfl

theorem readRootOnce_some {s : Storage} {r : Root} (h : s.store.root = some r) :
    readRootOnce s = .done s (.ok r) := by
  unfold readRootOnce
  rw [get_bind, h]
  rfl

theorem readRootOnce_none {s : Storage} (h : s.store.root = none) :
    readRootOnce s = readRoot s := by
  unfold readRootOnce
  rw [get_bind, h]

/-! ## Ends of loading -/

theorem exec_release {key : Lock} {s : Storage} (h : s.store.held = [(key, 0)]) :
    exec (release key) s = (.ok (), { s with store := { s.store with held := [] } }) := by
  have hline : waitersOf? s.store.held key = some 0 := by
    rw [h]
    simp [waitersOf?]
  have hnone : s.store.held.filter (·.1 != key) = [] := by
    rw [h]
    simp
  unfold release
  rw [exec_onStore]
  simp only [hline, hnone]

/-- Nobody holds a lock, so it is taken at once and given up in the end. -/
theorem ended_holding {α : Type} {key : Lock} {x : Activity Storage α} {s : Storage}
    (h : s.store.held = []) {r : Except Failure α} {t : Storage}
    (hx : ended x { s with store := { s.store with held := [(key, 0)] } } = (r, t))
    (ht : t.store.held = [(key, 0)]) :
    ended (holding key x) s = (r, { t with store := { t.store with held := [] } }) := by
  have hfree : waitersOf? s.store.held key = none := by
    rw [h]
    rfl
  have hacquire : ended (acquire key) s =
      (.ok (), { s with store := { s.store with held := [(key, 0)] } }) := by
    unfold ended
    rw [acquire_free hfree, h]
    rfl
  unfold holding
  rw [ended_bind_ok hacquire]
  have hrelease : (release key).run.run t =
      (.ok (), { t with store := { t.store with held := [] } }) := exec_release ht
  unfold ended Activity.ensuring
  rw [finish_attempt]
  unfold ended at hx
  rw [hx]
  dsimp only
  rw [hrelease]
  rfl

theorem ended_readRoot (s : Storage) :
    ended readRoot s = exec (takeRoot (s.shelf.read s.store.rootName).1)
      { s with shelf := (s.shelf.read s.store.rootName).2 } := by
  unfold ended
  rw [readRoot_eq]
  rfl

theorem ended_readRootOnce {s : Storage} (h : s.store.root = none) :
    ended readRootOnce s = ended readRoot s := congrArg Progress.finish (readRootOnce_none h)

theorem ended_readChat (chat : String) (r : Root) (s : Storage) :
    ended (readChat chat r) s =
      exec (takeChat chat r (s.shelf.read (Store.valuesName s.store.valuesStart chat)).1)
        { s with shelf := (s.shelf.read (Store.valuesName s.store.valuesStart chat)).2 } := by
  unfold ended
  rw [readChat_eq]
  rfl

/-- The values that are read come into memory, and then those whose variables are gone leave. -/
theorem exec_takeChat_sweep {chat : String} {root : Root} {text : Option String} {s : Storage}
    {raw : List (String × Json)} {vs : ChatValues} (hraw : rawValues? text = some raw)
    (hvs : readValues ⟨s.clock.now, false⟩ raw = vs) :
    exec (takeChat chat root (.ok text)) s = exec (sweep chat vs (s.store.root.getD root))
      { s with store :=
        { s.store.setValues chat vs with
          degraded := s.store.degraded.filter (· != chat) } } := by
  unfold takeChat
  simp only [hraw]
  rw [exec_bind, exec_context]
  dsimp only
  rw [hvs, exec_bind, exec_onStore]
  dsimp only
  unfold rootOr
  rw [exec_bind, exec_bind, exec_get]
  dsimp only
  rw [exec_pure]
  rfl

/-- A chat whose variables all have definitions is taken over as it was read. -/
theorem exec_takeChat {chat : String} {root : Root} {text : Option String} {s : Storage}
    {raw : List (String × Json)} {vs : ChatValues} (hraw : rawValues? text = some raw)
    (hvs : readValues ⟨s.clock.now, false⟩ raw = vs)
    (hkept : ∀ id ∈ Json.keys vs, id ∉ s.store.removed ∧
      id ∈ Json.keys (s.store.root.getD root).definitions) :
    exec (takeChat chat root (.ok text)) s = (.ok vs, { s with store :=
      { s.store.setValues chat vs with
        degraded := s.store.degraded.filter (· != chat) } }) := by
  rw [exec_takeChat_sweep hraw hvs]
  unfold sweep
  rw [exec_bind, exec_get]
  dsimp only
  rw [if_neg]
  · rfl
  · rw [List.any_eq_true]
    rintro ⟨v, hv, hgone⟩
    obtain ⟨hremoved, hid⟩ := hkept v.1 (List.mem_map_of_mem hv)
    rw [← Json.find?_isSome] at hid
    simp only [Store.setValues, Bool.or_eq_true, List.contains_eq_mem, decide_eq_true_eq, hremoved,
      false_or, Bool.and_eq_true, Option.isNone_iff_eq_none] at hgone
    rw [hgone.2] at hid
    contradiction

/-- As long as no variable was removed, the values of the variables that are defined stay. -/
theorem exec_sweep (chat : String) (vs : ChatValues) (root : Root) {s : Storage}
    (hremoved : s.store.removed = []) (hd : s.store.rootDegraded = false) :
    ∃ t, exec (sweep chat vs root) s =
        (.ok (vs.filter fun v => (Json.find? root.definitions v.1).isSome), t) ∧
      t.store.held = s.store.held := by
  have hgone (id : String) : (s.store.removed.contains id ||
      (!s.store.rootDegraded && (Json.find? root.definitions id).isNone)) =
        !(Json.find? root.definitions id).isSome := by
    rw [hremoved, hd]
    cases Json.find? root.definitions id <;> rfl
  unfold sweep
  rw [exec_bind, exec_get]
  simp only [hgone, Bool.not_not]
  split
  · exact ⟨_, rfl, rfl⟩
  · next hall =>
    rw [List.filter_eq_self.mpr]
    · exact ⟨s, rfl, rfl⟩
    · intro v hv
      by_contra hout
      refine hall (List.any_eq_true.mpr ⟨v, hv, ?_⟩)
      rw [Bool.eq_false_iff.mpr hout]
      rfl

/-- The values of an older root document come into memory, and are dirty. -/
theorem exec_adopt (chats : List (String × ChatValues)) :
    ∀ {s : Storage}, (Json.keys (s.store.values ++ chats)).Nodup →
      ∃ dirty, exec (adopt chats) s = (.ok (), { s with store :=
          { s.store with values := s.store.values ++ chats, dirty := dirty } }) ∧
        (∀ c ∈ s.store.dirty, c ∈ dirty) ∧ ∀ c ∈ Json.keys chats, c ∈ dirty := by
  induction chats with
  | nil =>
    intro s _
    refine ⟨s.store.dirty, ?_, fun c hc => hc, nofun⟩
    rw [List.append_nil]
    rfl
  | cons c chats ih =>
    intro s hnodup
    have hnew : c.1 ∉ Json.keys s.store.values := fun hmem => by
      rw [Json.keys_append, List.nodup_append] at hnodup
      exact hnodup.2.2 c.1 hmem c.1 List.mem_cons_self rfl
    have hset : (s.store.setValues c.1 c.2).values = s.store.values ++ [c] :=
      Json.insert_of_not_mem hnew c.2
    have hmarked : c.1 ∈ ((s.store.setValues c.1 c.2).markDirty c.1).dirty := by
      unfold Store.markDirty
      dsimp only
      split
      · next hin => exact List.contains_iff_mem.mp hin
      · exact List.mem_append_right _ (List.mem_singleton_self c.1)
    have hold (d : String) (hd : d ∈ s.store.dirty) :
        d ∈ ((s.store.setValues c.1 c.2).markDirty c.1).dirty := by
      unfold Store.markDirty
      dsimp only
      split
      · exact hd
      · exact List.mem_append_left _ hd
    let u : Storage := { s with store := (s.store.setValues c.1 c.2).markDirty c.1 }
    have hvalues : u.store.values = s.store.values ++ [c] := hset
    have hrest : (Json.keys (u.store.values ++ chats)).Nodup := by
      rw [hvalues, List.append_assoc]
      exact hnodup
    obtain ⟨dirty, hrun, hkept, hadded⟩ := ih hrest
    refine ⟨dirty, ?_, fun d hd => hkept d (hold d hd), fun d hd => ?_⟩
    · refine Eq.trans (b := exec (adopt chats) u) rfl ?_
      rw [hrun, hvalues, List.append_assoc]
      rfl
    · rcases List.mem_cons.mp hd with rfl | hd
      · exact hkept _ hmarked
      · exact hadded d hd

/-- An older root that was read comes into memory with its values, and all is written then. -/
theorem exec_takeRoot_moved {text : String} {r : Root} {chats : List (String × ChatValues)}
    {s : Storage} (hread : RootReading.ofText ⟨s.clock.now, false⟩ text = .root r (some chats))
    (hvalues : s.store.values = []) (hdistinct : (Json.keys chats).Nodup) :
    ∃ dirty, (∀ c ∈ Json.keys chats, c ∈ dirty) ∧
      exec (takeRoot (.ok (some text))) s = exec (flushQuietly >>= fun _ => rootOr r) { s with
        store := { s.store with
          root := some r, values := chats, rootDirty := true, dirty := dirty } } := by
  let t : Storage := { s with store := { s.store with root := some r } }
  have hall : t.store.values ++ chats = chats := by
    change s.store.values ++ chats = chats
    rw [hvalues, List.nil_append]
  have hnodup : (Json.keys (t.store.values ++ chats)).Nodup := by
    rw [hall]
    exact hdistinct
  obtain ⟨dirty, hadopt, -, hdirty⟩ := exec_adopt chats hnodup
  rw [hall] at hadopt
  refine ⟨dirty, hdirty, ?_⟩
  unfold takeRoot
  refine (exec_bind_ok (exec_context s) _).trans ?_
  dsimp only
  rw [hread]
  refine (exec_bind_ok (exec_onStore _ s) _).trans ?_
  refine (exec_bind_ok hadopt _).trans ?_
  exact exec_bind_ok (exec_onStore _ _) _

theorem ended_load_some {s : Storage} {r : Root} (h : s.store.root = some r) :
    ended load s = (.ok r, s) := by
  unfold ended
  rw [load_some h]
  rfl

theorem ended_suites {s : Storage} {r : Root} (h : s.store.root = some r) :
    ended suites s = (.ok r.suites, s) := ended_bind_ok (ended_load_some h) _

theorem ended_definitions {s : Storage} {r : Root} (h : s.store.root = some r) :
    ended definitions s = (.ok r.definitions, s) := ended_bind_ok (ended_load_some h) _

theorem ended_settings {s : Storage} {r : Root} (h : s.store.root = some r) :
    ended settings s = (.ok r.settings, s) := ended_bind_ok (ended_load_some h) _

/-- The root is read while its lock is held. -/
theorem ended_load {s : Storage} (hroot : s.store.root = none) (hheld : s.store.held = [])
    {result : Except Failure Root} {t : Storage}
    (hx : exec (takeRoot (s.shelf.read s.store.rootName).1)
      { s with
        store := { s.store with held := [(.root s.store.epoch, 0)] }
        shelf := (s.shelf.read s.store.rootName).2 } = (result, t))
    (ht : t.store.held = [(.root s.store.epoch, 0)]) :
    ended load s = (result, { t with store := { t.store with held := [] } }) := by
  have hload : ended load s = ended (holding (.root s.store.epoch) readRootOnce) s := by
    unfold ended
    rw [load_none hroot]
  rw [hload]
  refine ended_holding hheld ?_ ht
  rw [← hx, ended_readRootOnce]
  · exact ended_readRoot _
  · exact hroot

/-! ### Values in their place -/

/-- In a chat without values in memory nothing is changed in its place. -/
theorem amend_of_not_cached {s : Store} {chat : String} (h : s.cached? chat = none) (id : String)
    (v : Value) : s.amend id chat v = s := by
  unfold Store.amend
  rw [h]

theorem loadValues_usable {s : Storage} {chat : String} {vs : ChatValues}
    (h : s.store.usable? chat = some vs) : loadValues chat s = .done s (.ok vs) := by
  unfold loadValues
  rw [get_bind, h]
  rfl

/-- What comes of setting a value in a chat that is served from memory. -/
theorem setValue_usable {s : Storage} {chat : String} {vs : ChatValues}
    (h : s.store.usable? chat = some vs) (id : String) (v : Value) :
    setValue id chat v s = .done
      { s with store :=
        { (s.store.setValues chat (Json.insert vs id v)).markDirty chat with
          valuesTimer := some (s.clock.elapsed + s.store.debounce) } } (.ok ()) := by
  have hcheck : Activity.ofAction (checkWritable chat) s = .done s (.ok ()) := by
    change Progress.done (exec (checkWritable chat) s).2 (exec (checkWritable chat) s).1 = _
    rw [exec_checkWritable]
    unfold Store.usable? at h
    split at h
    · contradiction
    · next hd => rw [if_neg hd]
  unfold setValue
  change Progress.bind (Activity.ofAction (checkWritable chat) s) _ = _
  rw [hcheck]
  change Progress.bind (loadValues chat s) _ = _
  rw [loadValues_usable h]
  change Progress.bind (Activity.ofAction (checkWritable chat) s) _ = _
  rw [hcheck]
  rfl

/-- In a chat that can be read, changing a value where it lies makes no difference. -/
theorem editValue_eq {s : Storage} {chat : String} (h : s.store.isDegraded chat = false)
    (id : String) (v : Value) : editValue id chat v s = setValue id chat v s := by
  change setValue id chat v { s with store := s.store.amend id chat v } = _
  cases hc : s.store.cached? chat with
  | none => rw [amend_of_not_cached hc]
  | some vs =>
    have husable : s.store.usable? chat = some vs := by
      unfold Store.usable?
      rw [h]
      exact hc
    unfold Store.amend
    simp only [hc]
    split
    · have hset : (s.store.setValues chat (Json.insert vs id v)).usable? chat =
          some (Json.insert vs id v) := by
        unfold Store.usable? Store.isDegraded
        change (if s.store.isDegraded chat = true then none else _) = _
        rw [h]
        exact Json.find?_insert_self _ _ _
      rw [setValue_usable husable]
      refine (setValue_usable hset id v).trans ?_
      unfold Store.setValues
      dsimp only
      rw [Json.insert_insert, Json.insert_insert]
    · rfl

theorem ended_loadValues_usable {s : Storage} {chat : String} {vs : ChatValues}
    (h : s.store.usable? chat = some vs) : ended (loadValues chat) s = (.ok vs, s) := by
  unfold ended
  rw [loadValues_usable h]
  rfl

/-- A chat that is not served from memory is read while its lock is held. -/
theorem ended_loadValues {s u : Storage} {chat : String} {root : Root}
    (husable : s.store.usable? chat = none) (hload : ended load s = (.ok root, u))
    (hheld : u.store.held = []) (hu : u.store.usable? chat = none)
    {result : Except Failure ChatValues} {t : Storage}
    (hx : exec (takeChat chat root
        (u.shelf.read (Store.valuesName u.store.valuesStart chat)).1)
      { u with
        store := { u.store with held := [(.chat u.store.epoch chat, 0)] }
        shelf := (u.shelf.read (Store.valuesName u.store.valuesStart chat)).2 } = (result, t))
    (ht : t.store.held = [(.chat u.store.epoch chat, 0)]) :
    ended (loadValues chat) s = (result, { t with store := { t.store with held := [] } }) := by
  unfold loadValues
  rw [ended_get_bind, husable]
  dsimp only
  rw [ended_bind_ok hload, ended_get_bind]
  refine ended_holding hheld ?_ ht
  have hmissing : ({ u.store with held := [(.chat u.store.epoch chat, 0)] } : Store).usable? chat =
      none := hu
  unfold readChatOnce
  rw [ended_get_bind]
  dsimp only
  rw [hmissing, ← hx]
  exact ended_readChat chat root _

end Storage

end TagLedger
