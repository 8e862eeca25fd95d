import TagLedger.Proofs.Synced
import TagLedger.Proofs.Unreadable

/-!
# Values that leave the root

An older root document holds the values of all chats. When it is loaded, they come into memory, and
the new root and a document for each chat are written. While nothing is edited, these documents are
only ever given one text each, whatever is refused and whoever waits meanwhile.

    after an older root was loaded, its values are in memory        (ended_load_moved)
    writing, reading other chats and waiting keep `Carrying`        (Carrying.writing)
-/

namespace TagLedger

/-! ## Documents at a moment -/

/-- The text of a document after some calls that begin when it is `first`. The latest call stands
first. -/
def Shelf.textAfter (name : String) (first : Option String) : List Shelf.Call → Option String
  | [] => first
  | .write n text true :: earlier => if n = name then some text else textAfter name first earlier
  | .delete n true :: earlier => if n = name then none else textAfter name first earlier
  | _ :: earlier => textAfter name first earlier

/-- A document was written. -/
def Shelf.Wrote (name : String) (calls : List Shelf.Call) : Prop :=
  ∃ text, Shelf.Call.write name text true ∈ calls

namespace Shelf

/-- A call puts a text under a name. -/
def Call.puts (name : String) : Call → Bool
  | .write n _ true => n == name
  | _ => false

instance (name : String) (calls : List Call) : Decidable (Wrote name calls) :=
  decidable_of_iff (calls.any (·.puts name) = true) <| by
    rw [List.any_eq_true]
    constructor
    · rintro ⟨c, hc, hputs⟩
      unfold Call.puts at hputs
      split at hputs
      · next n text =>
        obtain rfl := beq_iff_eq.mp hputs
        exact ⟨text, hc⟩
      · contradiction
    · rintro ⟨text, ht⟩
      exact ⟨_, ht, beq_self_eq_true name⟩

variable {calls : List Call} {name : String} {P : String → Prop}

theorem textAfter_append (first : Option String) (c : Call) :
    textAfter name first (c :: calls) = textAfter name (textAfter name first calls) [c] := by
  cases c with
  | read n answer => rfl
  | write n t done => cases done <;> rfl
  | delete n done => cases done <;> rfl

/-- A document is never removed, and every text that is put under its name is as `P` says. -/
def Kept (name : String) (P : String → Prop) (calls : List Call) : Prop :=
  ∀ c ∈ calls, c.target? = some name → ∃ text done, c = .write name text done ∧ P text

theorem Kept.cons {c : Call} (h : Kept name P calls)
    (hc : c.target? = some name → ∃ text done, c = .write name text done ∧ P text) :
    Kept name P (c :: calls) := fun d hd ht => by
  rcases List.mem_cons.mp hd with rfl | hd
  · exact hc ht
  · exact h d hd ht

theorem Kept.tail {c : Call} (h : Kept name P (c :: calls)) : Kept name P calls :=
  fun d hd => h d (List.mem_cons_of_mem c hd)

theorem Wrote.cons (h : Wrote name calls) (c : Call) : Wrote name (c :: calls) := by
  obtain ⟨t, ht⟩ := h
  exact ⟨t, List.mem_cons_of_mem c ht⟩

/-- Calls that do nothing to a document, or in vain, do not change its text. -/
theorem textAfter_cons {c : Call} (h : ∀ t, c ≠ .write name t true)
    (hd : c ≠ .delete name true) (first : Option String) :
    textAfter name first (c :: calls) = textAfter name first calls := by
  cases c with
  | read n answer => rfl
  | write n t done =>
    cases done with
    | false => rfl
    | true =>
      rw [textAfter, if_neg]
      rintro rfl
      exact h t rfl
  | delete n done =>
    cases done with
    | false => rfl
    | true =>
      rw [textAfter, if_neg]
      rintro rfl
      exact hd rfl

theorem Kept.not_deleted {c : Call} (h : Kept name P (c :: calls)) (done : Bool) :
    c ≠ .delete name done := by
  rintro rfl
  obtain ⟨_, _, hc, -⟩ := h _ List.mem_cons_self rfl
  cases hc

/-- Once a document was written, it has a text of the kind that is put there. -/
theorem Kept.textAfter_wrote (h : Kept name P calls) (hw : Wrote name calls)
    (first : Option String) : ∃ text, textAfter name first calls = some text ∧ P text := by
  induction calls with
  | nil =>
    obtain ⟨t, ht⟩ := hw
    cases ht
  | cons c calls ih =>
    by_cases hc : ∃ t, c = .write name t true
    · obtain ⟨t, rfl⟩ := hc
      obtain ⟨text, done, ht, hP⟩ := h _ List.mem_cons_self rfl
      cases ht
      exact ⟨t, if_pos rfl, hP⟩
    · rw [not_exists] at hc
      rw [textAfter_cons hc (h.not_deleted true)]
      obtain ⟨t, ht⟩ := hw
      rcases List.mem_cons.mp ht with rfl | ht
      · exact absurd rfl (hc t)
      · exact ih h.tail ⟨t, ht⟩

/-- A document that was not written yet is what it was first. -/
theorem Kept.textAfter_first (h : Kept name P calls) (hw : ¬ Wrote name calls)
    (first : Option String) : textAfter name first calls = first := by
  induction calls with
  | nil => rfl
  | cons c calls ih =>
    have hc (t : String) : c ≠ .write name t true := by
      rintro rfl
      exact hw ⟨t, List.mem_cons_self⟩
    rw [textAfter_cons hc (h.not_deleted true)]
    exact ih h.tail fun hw' => hw (hw'.cons c)

end Shelf

/-! ## What texts hold -/

/-- The text of a values document holds a value. -/
def Holds (text : Option String) (id : String) (v : Value) : Prop :=
  ∃ raw, Storage.rawValues? text = some raw ∧
    ∀ ctx, Json.find? (Storage.readValues ctx raw) id = some v

/-- The text of a sound root. -/
def Root.IsText (text : String) : Prop :=
  ∃ r : Root, r.Sound ∧ r.document.writable = true ∧ r.text = text

/-- A sound root is not written like an older one. -/
theorem Root.IsText.ne_old {ctx : Schema.Context} {text old : String} {r : Root}
    {chats : List (String × ChatValues)} (h : IsText text)
    (hold : Storage.RootReading.ofText ctx old = .root r (some chats)) : text ≠ old := by
  obtain ⟨r', hr, hw, rfl⟩ := h
  rintro rfl
  rw [ofText_text hr hw] at hold
  injection hold with _ hmoved
  cases hmoved

/-- The values of a chat hold one of a variable, and each variable once. -/
structure ChatValues.Has (vs : ChatValues) (id : String) (v : Value) : Prop where
  keys : (Json.keys vs).Nodup
  found : Json.find? vs id = some v

namespace ChatValues.Has

variable {vs : ChatValues} {id other : String} {v : Value}

theorem nonempty (h : Has vs id v) : vs ≠ [] := by
  rintro rfl
  cases h.found

/-- Another variable gets a value. -/
theorem insert (h : Has vs id v) (hne : other ≠ id) (w : Value) :
    Has (Json.insert vs other w) id v where
  keys := Json.nodup_keys_insert h.keys other w
  found := by
    rw [Json.find?_insert, if_neg hne]
    exact h.found

/-- Another variable loses its value. -/
theorem drop (h : Has vs id v) (hne : other ≠ id) : Has (vs.filter (·.1 != other)) id v where
  keys := Json.nodup_keys_filter h.keys _
  found := by
    rw [Json.find?_filter (· != other), if_pos (bne_iff_ne.mpr hne.symm)]
    exact h.found

theorem holds (h : Has vs id v) {chat : String} (hw : (document chat vs).writable = true) :
    Holds (some (text chat vs)) id v := by
  refine ⟨_, rawValues?_text h.keys chat hw, fun ctx => ?_⟩
  rw [readValues_documents]
  exact h.found

end ChatValues.Has

/-! ## What is carried over -/

/-- Since the shelf was `a`, it was asked for nothing that would lose the value of a chat. -/
structure Logged (N : Naming) (chat id : String) (v : Value) (a : Shelf) (since : List Shelf.Call)
    (s : Shelf) : Prop where
  calls : s.calls = since ++ a.calls
  made : ∀ name, s.find? name = Shelf.textAfter name (a.find? name) since
  root : Shelf.Kept N.rootName Root.IsText since
  chat : Shelf.Kept (Store.valuesName N.valuesStart chat) (fun t => Holds (some t) id v) since

/-- Another call is made. -/
theorem Logged.call {N : Naming} {chat id : String} {v : Value} {a s t : Shelf}
    {since : List Shelf.Call} (h : Logged N chat id v a since s) {c : Shelf.Call}
    (hcalls : t.calls = c :: s.calls)
    (hmade : ∀ name, t.find? name = Shelf.textAfter name (s.find? name) [c])
    (hroot : c.target? = some N.rootName →
      ∃ text done, c = .write N.rootName text done ∧ Root.IsText text)
    (hchat : c.target? = some (Store.valuesName N.valuesStart chat) → ∃ text done,
      c = .write (Store.valuesName N.valuesStart chat) text done ∧ Holds (some text) id v) :
    Logged N chat id v a (c :: since) t where
  calls := by
    rw [hcalls, h.calls]
    rfl
  made name := by
    rw [hmade, h.made]
    exact (Shelf.textAfter_append _ c).symm
  root := h.root.cons hroot
  chat := h.chat.cons hchat

/-- The value of a chat is in memory, and nothing was written since that would lose it. -/
structure Carrying (N : Naming) (chat id : String) (v : Value) (a : Shelf) (s : Storage) :
    Prop where
  rootName : s.store.rootName = N.rootName
  valuesStart : s.store.valuesStart = N.valuesStart
  inMemory : ∃ r, s.store.root = some r ∧ r.Sound
  used : ∀ c ∈ Json.keys s.store.values, N.used c
  readable : chat ∉ s.store.degraded
  cached : chat ∈ Json.keys s.store.values
  has : ∀ vs, (chat, vs) ∈ s.store.values → ChatValues.Has vs id v
  log : ∃ since, Logged N chat id v a since s.shelf

variable {N : Naming} {chat c id : String} {v : Value} {a : Shelf} {s : Storage}

namespace Carrying

theorem usable (h : Carrying N chat id v a s) :
    ∃ vs, s.store.usable? chat = some vs ∧ ChatValues.Has vs id v := by
  obtain ⟨vs, hvs⟩ := Option.isSome_iff_exists.mp (Json.find?_isSome.mpr h.cached)
  refine ⟨vs, ?_, h.has vs (Json.mem_of_find? hvs)⟩
  unfold Store.usable? Store.isDegraded
  rw [if_neg]
  · exact hvs
  · rw [List.contains_iff_mem]
    exact h.readable

/-- Timers, the dirt, the locks and the clock may change. -/
theorem quiet (h : Carrying N chat id v a s) {rootDirty : Bool}
    {rootTimer valuesTimer : Option Nat} {dirty removed : List String}
    {held : List (Lock × Nat)} {granted : List Lock} {clock : Clock} :
    Carrying N chat id v a
      { s with
        store := { s.store with
          rootDirty := rootDirty, rootTimer := rootTimer, valuesTimer := valuesTimer
          dirty := dirty, removed := removed, held := held, granted := granted }
        clock := clock } :=
  { h with }

/-! ### Writing -/

theorem attemptRoot (h : Carrying N chat id v a s) {r : Root} (hr : s.store.root = some r)
    (hw : r.document.writable = true) : Carrying N chat id v a (s.attemptRoot r).2 := by
  obtain ⟨since, hlog⟩ := h.log
  have htext : Root.IsText r.text := by
    obtain ⟨r', hr', hsound⟩ := h.inMemory
    rw [hr] at hr'
    obtain rfl := Option.some.inj hr'
    exact ⟨r, hsound, hw, rfl⟩
  have hroot (done : Bool) : ∃ text d,
      Shelf.Call.write s.store.rootName r.text done = .write N.rootName text d ∧ Root.IsText text :=
    ⟨r.text, done, by rw [h.rootName], htext⟩
  have hother (done : Bool) (ht : (Shelf.Call.write s.store.rootName r.text done).target? =
      some (Store.valuesName N.valuesStart chat)) : False := by
    refine N.apart chat (h.used chat h.cached) ?_
    rw [← h.rootName]
    exact (Option.some.inj ht).symm
  unfold Storage.attemptRoot
  dsimp only
  split
  · exact { h with log := ⟨_ :: since, hlog.call rfl (fun _ => rfl) (fun _ => hroot false)
      fun ht => (hother false ht).elim⟩ }
  · exact { h with log := ⟨_ :: since, hlog.call rfl (fun name => find?_written _ _ _ name)
      (fun _ => hroot true) fun ht => (hother true ht).elim⟩ }

/-- A chat in memory is written or removed. The one with the value is never removed, as it holds
something. -/
theorem attemptChat (h : Carrying N chat id v a s) {vs : ChatValues}
    (hcached : s.store.cached? c = some vs)
    (hw : vs = [] ∨ (ChatValues.document c vs).writable = true) :
    Carrying N chat id v a (s.attemptChat c vs).2 := by
  obtain ⟨since, hlog⟩ := h.log
  have hused := h.used c (Json.mem_keys_of_find? hcached)
  have hname : Store.valuesName s.store.valuesStart c = Store.valuesName N.valuesStart c := by
    rw [h.valuesStart]
  have hself (hn : Store.valuesName N.valuesStart c = Store.valuesName N.valuesStart chat) :
      ChatValues.Has vs id v := by
    obtain rfl := N.distinct c chat hused (h.used chat h.cached) hn
    exact h.has vs (Json.mem_of_find? hcached)
  have hroot {call : Shelf.Call} (hcall : call.target? = some (Store.valuesName N.valuesStart c))
      (ht : call.target? = some N.rootName) : False := by
    rw [hcall] at ht
    exact N.apart c hused (Option.some.inj ht)
  unfold Storage.attemptChat
  dsimp only
  rw [hname]
  split
  · next hempty =>
    have hkept (done : Bool) (ht : (Shelf.Call.delete (Store.valuesName N.valuesStart c) done).target?
        = some (Store.valuesName N.valuesStart chat)) : False :=
      (hself (Option.some.inj ht)).nonempty hempty
    split
    · exact { h with log := ⟨_ :: since, hlog.call rfl (fun _ => rfl) (fun ht => (hroot rfl ht).elim)
        fun ht => (hkept false ht).elim⟩ }
    · exact { h with log := ⟨_ :: since, hlog.call rfl (fun name => find?_dropped _ _ name)
        (fun ht => (hroot rfl ht).elim) fun ht => (hkept true ht).elim⟩ }
  · next hfull =>
    have hkept (done : Bool) (ht : (Shelf.Call.write (Store.valuesName N.valuesStart c)
        (ChatValues.text c vs) done).target? = some (Store.valuesName N.valuesStart chat)) :
        ∃ text d, Shelf.Call.write (Store.valuesName N.valuesStart c) (ChatValues.text c vs) done =
          .write (Store.valuesName N.valuesStart chat) text d ∧ Holds (some text) id v := by
      have hn := Option.some.inj ht
      have hwritable := hw.resolve_left hfull
      exact ⟨_, done, by rw [← hn], (hself hn).holds hwritable⟩
    split
    · exact { h with log := ⟨_ :: since, hlog.call rfl (fun _ => rfl) (fun ht => (hroot rfl ht).elim)
        (hkept false)⟩ }
    · exact { h with log := ⟨_ :: since, hlog.call rfl (fun name => find?_written _ _ _ name)
        (fun ht => (hroot rfl ht).elim) (hkept true)⟩ }

theorem writing : KeepsWriting (Always (Carrying N chat id v a)) :=
  .ofAttempts (fun _ _ _ _ _ _ _ h => h.quiet) (fun _ _ _ h hr _ hw => h.attemptRoot hr hw)
    fun _ _ _ _ h hc _ hw => h.attemptChat hc hw

end Carrying

namespace Carrying

/-! ### Changes in memory -/

/-- The values of a chat change; those of the one with the value go on to hold it. -/
theorem setValues (h : Carrying N chat id v a s) (hc : N.used c) {vs : ChatValues}
    (hvs : c = chat → ChatValues.Has vs id v) {degraded : List String}
    (hmarked : chat ∈ degraded → chat ∈ s.store.degraded) :
    Carrying N chat id v a
      { s with store := { s.store.setValues c vs with degraded := degraded } } :=
  { h with
    used := fun k hk => (Json.mem_keys_insert.mp hk).elim (fun e => e ▸ hc) (h.used k)
    readable := fun hmem => h.readable (hmarked hmem)
    cached := Json.mem_keys_insert.mpr (Or.inr h.cached)
    has := fun ws hws => by
      rcases Json.mem_insert hws with heq | hmem
      · injection heq with hchat hvalues
        rw [hvalues]
        exact hvs hchat.symm
      · exact h.has ws hmem }

theorem setRoot (h : Carrying N chat id v a s) {r : Root} (hr : r.Sound) :
    Carrying N chat id v a { s with store := { s.store with root := some r } } :=
  { h with inMemory := ⟨r, rfl, hr⟩ }

theorem removeValues {other : String} (hne : other ≠ id) :
    KeepsNow (Always (Carrying N chat id v a)) (Storage.removeValues other) := by
  refine .removeValues (fun _ _ _ _ h => h.quiet) (fun h x hx _ _ ht => ?_) fun _ _ _ h => h.quiet
  refine ht.setValues (h.used _ (List.mem_map_of_mem hx)) ?_ fun hmem => hmem
  rintro rfl
  exact (h.has _ hx).drop hne

/-! ### Reading -/

/-- A document is read. -/
theorem read (h : Carrying N chat id v a s) (name : String) :
    Carrying N chat id v a { s with shelf := (s.shelf.read name).2 } := by
  obtain ⟨since, hlog⟩ := h.log
  exact { h with log := ⟨_ :: since, hlog.call rfl (fun _ => rfl) nofun nofun⟩ }

theorem degradeChat (h : Carrying N chat id v a s) (hc : N.used c) (hne : c ≠ chat) :
    Carrying N chat id v a (exec (Storage.degradeChat c) s).2 := by
  have hmarked (hmem : chat ∈ if s.store.degraded.contains c then s.store.degraded
      else s.store.degraded ++ [c]) : chat ∈ s.store.degraded := by
    split at hmem
    · exact hmem
    · refine (List.mem_append.mp hmem).resolve_right fun hin => hne ?_
      exact (List.mem_singleton.mp hin).symm
  unfold Storage.degradeChat
  rw [exec_bind, Storage.exec_onStore]
  dsimp only
  split
  · exact { h with readable := fun hmem => h.readable (hmarked hmem) }
  · next hcached =>
    have hnew : c ∉ Json.keys s.store.values := fun hmem => by
      rw [← Json.find?_isSome] at hmem
      exact hcached hmem
    rw [← Json.insert_of_not_mem hnew]
    exact h.setValues hc (fun e => absurd e hne) hmarked

theorem takeChat (h : Carrying N chat id v a s) (hc : N.used c) (hne : c ≠ chat) (root : Root)
    (answer : Except StorageFault (Option String)) :
    Carrying N chat id v a (exec (Storage.takeChat c root answer) s).2 := by
  unfold Storage.takeChat
  cases answer with
  | error e => exact h.degradeChat hc hne
  | ok text =>
    dsimp only
    cases Storage.rawValues? text with
    | none => exact h.degradeChat hc hne
    | some raw =>
      dsimp only
      rw [exec_bind, Storage.exec_context]
      dsimp only
      rw [exec_bind, Storage.exec_onStore]
      have hset : Carrying N chat id v a { s with store :=
          { s.store.setValues c (Storage.readValues ⟨s.clock.now, false⟩ raw) with
            degraded := s.store.degraded.filter (· != c) } } :=
        h.setValues hc (fun e => absurd e hne) fun hmem => List.mem_of_mem_filter hmem
      have hsweep (vs : ChatValues) (root : Root) :
          KeepsNow (Always (Carrying N chat id v a)) (Storage.sweep c vs root) := by
        refine KeepsNow.getThen fun s => .ite ?_ (.pure _)
        refine KeepsNow.bind (x := Storage.onStore _) (fun _ s h => ?_) fun _ => ?_
        · exact h.setValues hc (fun e => absurd e hne) fun hmem => hmem
        · refine KeepsNow.bind (x := Storage.saveValuesSoon c) (fun _ s h => ?_) fun _ => .pure _
          exact h.quiet
      exact (KeepsNow.rootOr root).bind (fun root => hsweep _ root) none _ hset

theorem load : Keeps (Always (Carrying N chat id v a)) Storage.load :=
  .loadInMemory fun _ _ h => Option.isSome_iff_exists.mpr (h.inMemory.imp fun _ hr => hr.1)

/-- The chat with the value is served from memory. -/
theorem loadValues (hc : N.used c) : Gives (Always (Carrying N chat id v a))
    (fun vs _ => c = chat → ChatValues.Has vs id v) (Storage.loadValues c) := by
  by_cases hne : c = chat
  · subst hne
    intro f s h
    obtain ⟨vs, hvs, hhas⟩ := h.usable
    rw [Storage.loadValues_usable hvs]
    refine .done h fun ws hws _ => ?_
    rw [← Except.ok.inj hws]
    exact hhas
  · have hread (root : Root) : Keeps (Always (Carrying N chat id v a)) (Storage.readChat c root) :=
      fun f s h => by
        rw [Storage.readChat_eq]
        refine .waits h fun g f t u ht hu => ?_
        obtain rfl := Option.some.inj hu
        cases g with
        | cancel => exact .done ht nofun
        | proceed => exact .done ((ht.read _).takeChat hc hne root _) fun _ _ => trivial
    have hkeeps : Keeps (Always (Carrying N chat id v a)) (Storage.loadValues c) := by
      unfold Storage.loadValues
      refine Keeps.getThen fun s => ?_
      split
      · exact .pure _
      · refine load.bind fun root => Keeps.getThen fun s => ?_
        refine Gives.holding (fun _ _ _ _ h => h.quiet) (fun _ _ _ _ h => h)
          (Keeps.getThen fun s => ?_) _
        split
        · exact .pure _
        · exact hread root
    exact fun f s h => (hkeeps f s h).mono fun _ _ _ e => absurd e hne

/-! ### Edits -/

theorem changeRoot {f : Root → Root} (hf : ∀ r : Root, r.Sound → (f r).Sound) :
    Keeps (Always (Carrying N chat id v a)) (Storage.changeRoot f) := by
  refine load.bind fun root => ?_
  refine (Keeps.ofAction (x := Storage.onStore _) fun _ s h => ?_).bind fun _ =>
    Keeps.ofAction (x := Storage.saveSoon) fun _ _ h => h.quiet
  obtain ⟨r, hr, hsound⟩ := h.inMemory
  rw [Storage.exec_onStore, hr]
  exact h.setRoot (hf r hsound)

/-- Another variable gets a value, or another chat does. -/
theorem setValue (hc : N.used c) {other : String} (hne : c = chat → other ≠ id) (w : Value) :
    Keeps (Always (Carrying N chat id v a)) (Storage.setValue other c w) :=
  .setValue (loadValues hc)
    (fun _ _ _ h hvs => h.setValues hc (fun e => (hvs e).insert (hne e) w) fun hmem => hmem)
    fun _ _ h => h.quiet

end Carrying

/-! ## Loading an older root -/

variable {r : Root} {chats : List (String × ChatValues)}

/-- The storage when an older root was taken over, and nothing is written yet. -/
def Storage.takenOver (s : Storage) (r : Root) (chats : List (String × ChatValues))
    (dirty : List String) : Storage :=
  { s with
    store := { s.store with
      root := some r, values := chats, rootDirty := true, dirty := dirty
      held := [(.root s.store.epoch, 0)] }
    shelf := (s.shelf.read s.store.rootName).2 }

/-- The storage is `a`, but for timers, what is dirty, and documents of chats in memory. -/
structure SameMemory (N : Naming) (a s : Storage) : Prop where
  refuses : s.shelf.refuses = a.shelf.refuses
  store : ∃ rootDirty dirty rootTimer valuesTimer, s.store =
    { a.store with
      rootDirty := rootDirty, dirty := dirty, rootTimer := rootTimer, valuesTimer := valuesTimer }
  others : ∀ c, N.used c → c ∉ Json.keys a.store.values →
    s.shelf.find? (Store.valuesName N.valuesStart c) =
      a.shelf.find? (Store.valuesName N.valuesStart c)

theorem SameMemory.writing {a : Storage} (hrootName : a.store.rootName = N.rootName)
    (hstart : a.store.valuesStart = N.valuesStart)
    (hused : ∀ c ∈ Json.keys a.store.values, N.used c) :
    KeepsWriting (Always (SameMemory N a)) := by
  refine .ofAttempts (fun _ _ _ _ _ _ _ h => ?_) (fun _ s r h _ _ _ => ?_)
    fun _ s c vs h hcached _ _ => ?_
  · obtain ⟨hrefuses, ⟨_, _, _, _, hstore⟩, hothers⟩ := h
    exact ⟨hrefuses, ⟨_, _, _, _, by rw [hstore]⟩, hothers⟩
  · obtain ⟨hrefuses, ⟨_, _, _, _, hstore⟩, hothers⟩ := h
    have hname : s.store.rootName = N.rootName := by rw [hstore, ← hrootName]
    unfold Storage.attemptRoot
    dsimp only
    split
    · exact ⟨hrefuses, ⟨_, _, _, _, by rw [hstore]⟩, hothers⟩
    · refine ⟨hrefuses, ⟨_, _, _, _, by rw [hstore]⟩, fun c hc hout => ?_⟩
      rw [find?_written, hname, if_neg (N.apart c hc).symm]
      exact hothers c hc hout
  · obtain ⟨hrefuses, ⟨_, _, _, _, hstore⟩, hothers⟩ := h
    have hmem : c ∈ Json.keys a.store.values := by
      have hkey := Json.mem_keys_of_find? hcached
      rw [hstore] at hkey
      exact hkey
    have hname : Store.valuesName s.store.valuesStart c = Store.valuesName N.valuesStart c := by
      rw [hstore, ← hstart]
    have hother (d : String) (hd : N.used d) (hout : d ∉ Json.keys a.store.values) :
        Store.valuesName N.valuesStart c ≠ Store.valuesName N.valuesStart d := fun e => by
      obtain rfl := N.distinct c d (hused c hmem) hd e
      exact hout hmem
    unfold Storage.attemptChat Store.markDirty
    dsimp only
    rw [hname]
    split <;> split
    · exact ⟨hrefuses, ⟨_, _, _, _, by rw [hstore]⟩, hothers⟩
    · refine ⟨hrefuses, ⟨_, _, _, _, by rw [hstore]⟩, fun d hd hout => ?_⟩
      rw [find?_dropped, if_neg (hother d hd hout)]
      exact hothers d hd hout
    · exact ⟨hrefuses, ⟨_, _, _, _, by rw [hstore]⟩, hothers⟩
    · refine ⟨hrefuses, ⟨_, _, _, _, by rw [hstore]⟩, fun d hd hout => ?_⟩
      rw [find?_written, if_neg (hother d hd hout)]
      exact hothers d hd hout

section Loading

variable {text : String} (h : Fresh N s) (hroot : s.shelf.find? N.rootName = some text)
  (hreads : s.shelf.refuses (.read N.rootName) = false)
  (hread : Storage.RootReading.ofText ⟨s.clock.now, false⟩ text = .root r (some chats))
  (hused : ∀ c ∈ Json.keys chats, N.used c)

include h hroot hreads hread hused

/-- What an older root held is taken over, and all is written while the lock of the root is
held. -/
theorem ended_load_moved : ∃ dirty t, (exec Storage.flushQuietly (s.takenOver r chats dirty)).2 = t ∧
    SameMemory N (s.takenOver r chats dirty) t ∧
    (ended Storage.load s).2 = { t with store := { t.store with held := [] } } := by
  have hanswer : (s.shelf.read s.store.rootName).1 = .ok (some text) := by
    unfold Shelf.read
    rw [h.rootName, hreads, hroot]
    rfl
  let u : Storage :=
    { s with
      store := { s.store with held := [(.root s.store.epoch, 0)] }
      shelf := (s.shelf.read s.store.rootName).2 }
  obtain ⟨dirty, -, htake⟩ :=
    Storage.exec_takeRoot_moved (s := u) hread h.values (migrated_of_ofText hread).distinct
  change exec (Storage.takeRoot (.ok (some text))) u =
    exec (Storage.flushQuietly >>= fun _ => Storage.rootOr r) (s.takenOver r chats dirty) at htake
  have hsame : SameMemory N (s.takenOver r chats dirty) (s.takenOver r chats dirty) :=
    ⟨rfl, ⟨_, _, _, _, rfl⟩, fun _ _ _ => rfl⟩
  have hwriting : KeepsWriting (Always (SameMemory N (s.takenOver r chats dirty))) :=
    SameMemory.writing h.rootName h.valuesStart hused
  have hmemory := hwriting.flushQuietly none _ hsame
  rcases hflush : exec Storage.flushQuietly (s.takenOver r chats dirty) with ⟨result, t⟩
  rw [hflush] at hmemory
  obtain ⟨answer, hrun⟩ :
      ∃ answer, exec (Storage.takeRoot (.ok (some text))) u = (answer, t) := by
    rw [htake, exec_bind, hflush]
    cases result with
    | ok _ => exact ⟨_, rfl⟩
    | error e => exact ⟨_, rfl⟩
  have hline : t.store.held = [(.root s.store.epoch, 0)] := by
    obtain ⟨_, _, _, _, hstore⟩ := hmemory.store
    rw [hstore]
    rfl
  rw [← hanswer] at hrun
  refine ⟨dirty, t, congrArg Prod.snd hflush, hmemory, ?_⟩
  rw [Storage.ended_load h.root h.lines hrun hline]

/-- When an older root was loaded, all it held is in memory, and other chats are as they were,
whatever was refused meanwhile. -/
theorem sameMemory_load :
    SameMemory N { s with store := { s.store with root := some r, values := chats } }
      (ended Storage.load s).2 := by
  obtain ⟨dirty, t, -, hmemory, hend⟩ := ended_load_moved h hroot hreads hread hused
  obtain ⟨rootDirty, dirty', rootTimer, valuesTimer, hstore⟩ := hmemory.store
  rw [hend]
  refine ⟨hmemory.refuses, ⟨rootDirty, dirty', rootTimer, valuesTimer, ?_⟩, hmemory.others⟩
  dsimp only
  rw [hstore, Storage.takenOver, ← h.lines]

/-- When an older root was loaded, each value it held is carried over. -/
theorem carrying_load {vs : ChatValues} (hchat : (chat, vs) ∈ chats)
    (hv : Json.find? vs id = some v) :
    Carrying N chat id v s.shelf (ended Storage.load s).2 := by
  have hm := migrated_of_ofText hread
  obtain ⟨dirty, t, hflush, -, hend⟩ := ended_load_moved h hroot hreads hread hused
  have hcarrying : Carrying N chat id v s.shelf (s.takenOver r chats dirty) :=
    { rootName := h.rootName
      valuesStart := h.valuesStart
      inMemory := ⟨r, rfl, hm.sound⟩
      used := hused
      readable := by
        change chat ∉ s.store.degraded
        rw [h.readable]
        exact List.not_mem_nil
      cached := List.mem_map_of_mem hchat
      has := fun ws hws => by
        have hsame := Json.find?_of_mem hm.distinct hchat
        rw [Json.find?_of_mem hm.distinct hws] at hsame
        obtain rfl := Option.some.inj hsame
        exact ⟨(hm.values _ hws).keys, hv⟩
      log := ⟨[_], rfl, fun _ => rfl, nofun, nofun⟩ }
  have hwritten := Carrying.writing.flushQuietly none _ hcarrying
  rw [hflush] at hwritten
  rw [hend]
  exact hwritten.quiet

end Loading

end TagLedger
