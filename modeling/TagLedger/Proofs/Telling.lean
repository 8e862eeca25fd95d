import TagLedger.Proofs.Removal
import TagLedger.Proofs.Underway

/-!
# What changes tell

While documents are being changed, the shelf holds what those changes left that were made, in the
order in which they were made. A document that is clean is in memory as the last change tells that
was begun.

    Told N first t → edits, and what begins or makes a change, keep it      (Told.edit, Told.make)
-/

namespace TagLedger

open Traffic (Listed chatText)

variable {N : Naming} {first : String → Option String} {t : Traffic} {chat : String}

/-! ## Documents -/

/-- A document of a store. -/
inductive Page where
  | root
  | chat (c : String)

namespace Page

def Used (N : Naming) : Page → Prop
  | .root => True
  | .chat c => N.used c

def name (N : Naming) : Page → String
  | .root => N.rootName
  | .chat c => Store.valuesName N.valuesStart c

def isDirty (s : Store) : Page → Prop
  | .root => s.rootDirty = true
  | .chat c => c ∈ s.dirty

/-- What the document should hold, no text if it should not be there. There is no saying so before
it was loaded, or if it is too long. -/
def content? (s : Store) : Page → Option (Option String)
  | .root => s.root.bind fun r => if r.document.writable then some (some r.text) else none
  | .chat c => (s.cached? c).bind fun vs =>
    if vs = [] ∨ (ChatValues.document c vs).writable then some (chatText c vs) else none

variable {p q : Page}

/-- Pages that are used have names of their own. -/
theorem eq_of_name (hp : p.Used N) (hq : q.Used N) (h : p.name N = q.name N) : p = q := by
  cases p with
  | root =>
    cases q with
    | root => rfl
    | chat c => exact absurd h.symm (N.apart c hq)
  | chat c =>
    cases q with
    | root => exact absurd h (N.apart c hp)
    | chat d => exact congrArg Page.chat (N.distinct c d hp hq h)

end Page

/-! ## What changes leave -/

namespace Change

/-- The last change of the document. -/
def last? (name : String) (changes : List Change) : Option Change :=
  changes.reverse.find? (·.name = name)

/-- What the changes leave under a name, one after another. -/
def leave (first : String → Option String) (changes : List Change) (name : String) :
    Option String :=
  match last? name changes with
  | some c => c.text
  | none => first name

theorem last?_concat (changes : List Change) (c : Change) (name : String) :
    last? name (changes ++ [c]) = if c.name = name then some c else last? name changes := by
  unfold last?
  rw [List.reverse_concat, List.find?_cons]
  by_cases h : c.name = name <;> simp [h]

theorem leave_concat (changes : List Change) (c : Change) (name : String) :
    leave first (changes ++ [c]) name =
      if c.name = name then c.text else leave first changes name := by
  unfold leave
  rw [last?_concat]
  by_cases h : c.name = name
  · rw [if_pos h, if_pos h]
  · rw [if_neg h, if_neg h]

theorem leave_of_others {changes : List Change} {name : String}
    (h : ∀ c ∈ changes, c.name ≠ name) : leave first changes name = first name := by
  have hnone : last? name changes = none := by
    refine List.find?_eq_none.mpr fun c hc => ?_
    simpa using h c (List.mem_reverse.mp hc)
  unfold leave
  rw [hnone]

/-- A change is made of a shelf that refuses nothing. -/
theorem apply_accepted {shelf : Shelf} (h : ∀ a, shelf.refuses a = false) (c : Change) :
    (c.apply shelf).1 = .ok () ∧ (c.apply shelf).2.refuses = shelf.refuses ∧
      ∀ name, (c.apply shelf).2.find? name =
        if c.name = name then c.text else shelf.find? name := by
  unfold apply
  cases c.text with
  | none =>
    dsimp only
    rw [Shelf.delete_done (h _)]
    exact ⟨rfl, rfl, fun name => find?_dropped shelf c.name name⟩
  | some text =>
    dsimp only
    rw [Shelf.write_done (h _)]
    exact ⟨rfl, rfl, fun name => find?_written shelf c.name text name⟩

end Change

/-- The changes that were made, in the order in which they were. -/
def Traffic.changesMade (t : Traffic) : List Change := t.made.filterMap (t.begun[·]?)

/-- The text is that of some values of the chat. -/
def ChatValues.Writes (chat : String) (text : Option String) : Prop :=
  ∃ vs, (Json.keys vs).Nodup ∧ (vs = [] ∨ (ChatValues.document chat vs).writable = true) ∧
    text = chatText chat vs

/-! ## The invariant -/

/-- The shelf holds what the changes left that were made, and a document that is clean is in memory
as the last change told that was begun. -/
structure Told (N : Naming) (first : String → Option String) (t : Traffic) : Prop where
  rootName : t.storage.store.rootName = N.rootName
  valuesStart : t.storage.store.valuesStart = N.valuesStart
  accepts : ∀ a, t.storage.shelf.refuses a = false
  inMemory : t.storage.store.root.isSome = true
  unmarked : t.storage.store.rootDegraded = false
  readable : t.storage.store.degraded = []
  used : ∀ c ∈ Json.keys t.storage.store.values, N.used c
  distinct : (Json.keys t.storage.store.values).Nodup
  listed : t.Listed
  once : t.made.Nodup
  shelf : ∀ name, t.storage.shelf.find? name = Change.leave first t.changesMade name
  told : ∀ p : Page, p.Used N → ¬ p.isDirty t.storage.store →
    ∀ x, p.content? t.storage.store = some x → Change.leave first t.begun (p.name N) = x
  unread : ∀ c, N.used c → c ∉ Json.keys t.storage.store.values →
    (∀ x ∈ t.begun, x.name ≠ Store.valuesName N.valuesStart c) ∧
      ChatValues.Writes c (first (Store.valuesName N.valuesStart c))

namespace Told

/-- Another store tells the same of the documents that are clean. -/
theorem withStore (h : Told N first t) {u : Store} (hname : u.rootName = t.storage.store.rootName)
    (hstart : u.valuesStart = t.storage.store.valuesStart) (hloaded : u.root.isSome = true)
    (hunmarked : u.rootDegraded = t.storage.store.rootDegraded)
    (hreadable : u.degraded = t.storage.store.degraded)
    (hkeys : ∀ c, c ∈ Json.keys u.values ↔ c ∈ Json.keys t.storage.store.values)
    (hdistinct : (Json.keys u.values).Nodup)
    (hclean : ∀ p : Page, p.Used N → ¬ p.isDirty u → ¬ p.isDirty t.storage.store ∧
      ∀ x, p.content? u = some x → p.content? t.storage.store = some x) :
    Told N first { t with storage := { t.storage with store := u } } :=
  { h with
    rootName := hname.trans h.rootName
    valuesStart := hstart.trans h.valuesStart
    inMemory := hloaded
    unmarked := hunmarked.trans h.unmarked
    readable := hreadable.trans h.readable
    used := fun c hc => h.used c ((hkeys c).mp hc)
    distinct := hdistinct
    told := fun p hp hd x hx => h.told p hp (hclean p hp hd).1 x ((hclean p hp hd).2 x hx)
    unread := fun c hc hnone => h.unread c hc fun hmem => hnone ((hkeys c).mpr hmem) }

/-- Timers and locks are nothing to documents. -/
theorem quiet (h : Told N first t) (rootTimer valuesTimer : Option Nat) (removed : List String)
    (held : List (Lock × Nat)) (granted : List Lock) (clock : Clock)
    (random : Identifier.Random) : Told N first { t with storage := { t.storage with
      store := { t.storage.store with
        rootTimer := rootTimer, valuesTimer := valuesTimer, removed := removed
        held := held, granted := granted }
      clock := clock, random := random } } :=
  { h with }

/-- Every chat was read without fault. -/
theorem isDegraded (h : Told N first t) (chat : String) :
    t.storage.store.isDegraded chat = false := by
  unfold Store.isDegraded
  rw [h.readable]
  rfl

/-! ### Steps of a change -/

theorem changesMade_begun (h : Listed t) (c : Change) (s : Storage) :
    Traffic.changesMade ⟨s, t.begun ++ [c], t.made⟩ = t.changesMade := by
  refine List.filterMap_congr fun n hn => ?_
  exact List.getElem?_append_left (h n hn)

/-- A change begins, and its document is clean from now on. -/
theorem begun (h : Told N first t) {p : Page} (hp : p.Used N) {x : Option String} {u : Store}
    (hin : ∀ c, p = .chat c → c ∈ Json.keys t.storage.store.values)
    (hx : p.content? u = some x)
    (hframe : ∃ rootDirty dirty rootTimer, u = { t.storage.store with
      rootDirty := rootDirty, dirty := dirty, rootTimer := rootTimer })
    (hothers : ∀ q : Page, q ≠ p → ¬ q.isDirty u → ¬ q.isDirty t.storage.store) :
    Told N first { t with
      storage := { t.storage with store := u }, begun := t.begun ++ [⟨p.name N, x⟩] } := by
  obtain ⟨rootDirty, dirty, rootTimer, rfl⟩ := hframe
  refine { h with listed := ?_, shelf := ?_, told := ?_, unread := ?_ }
  · intro n hn
    rw [List.length_append]
    exact Nat.lt_add_right _ (h.listed n hn)
  · intro name
    rw [changesMade_begun h.listed]
    exact h.shelf name
  · intro q hq hd y hy
    rw [Change.leave_concat]
    by_cases hqp : q = p
    · subst hqp
      rw [if_pos rfl]
      exact Option.some.inj (hx.symm.trans hy)
    · rw [if_neg fun hname => hqp (Page.eq_of_name hp hq hname).symm]
      exact h.told q hq (hothers q hqp hd) y hy
  · intro c hc hnone
    obtain ⟨hbegun, htext⟩ := h.unread c hc hnone
    refine ⟨fun d hd => ?_, htext⟩
    rcases List.mem_append.mp hd with hd | hd
    · exact hbegun d hd
    · rw [List.mem_singleton.mp hd]
      intro hname
      have hpc : p = .chat c := Page.eq_of_name hp (q := .chat c) hc hname
      exact hnone (hin c hpc)

theorem startRoot (h : Told N first t) : Told N first (exec Traffic.startRoot t).2 := by
  obtain ⟨r, hr⟩ := Option.isSome_iff_exists.mp h.inMemory
  cases hw : r.document.writable with
  | false =>
    rw [Traffic.exec_startRoot_long hr h.unmarked hw]
    exact { h with }
  | true =>
    rw [Traffic.exec_startRoot hr h.unmarked hw, h.rootName]
    refine h.begun (p := .root) trivial nofun ?_ ⟨_, _, _, rfl⟩ fun q hq hd => ?_
    · change (t.storage.store.root.bind _) = _
      rw [hr, Option.bind_some, if_pos hw]
    · cases q with
      | root => exact absurd rfl hq
      | chat c => exact hd

theorem startChat (h : Told N first t) (chat : String) :
    Told N first (exec (Traffic.startChat chat) t).2 := by
  cases hc : t.storage.store.cached? chat with
  | none =>
    rw [Traffic.exec_startChat_none hc]
    exact h
  | some vs =>
    have hd := h.isDegraded chat
    have hkeys := Json.mem_keys_of_find? hc
    have hothers (c : String) (hne : c ≠ chat)
        (hclean : c ∉ t.storage.store.dirty.filter (· != chat)) : c ∉ t.storage.store.dirty :=
      fun hmem => hclean (List.mem_filter.mpr ⟨hmem, bne_iff_ne.mpr hne⟩)
    by_cases hw : vs = [] ∨ (ChatValues.document chat vs).writable = true
    · rw [Traffic.exec_startChat hc hd hw, h.valuesStart]
      refine h.begun (p := .chat chat) (h.used chat hkeys) ?_ ?_ ⟨_, _, _, rfl⟩ fun q hq hd => ?_
      · rintro c ⟨⟩
        exact hkeys
      · change ((t.storage.store.cached? chat).bind _) = _
        rw [hc, Option.bind_some, if_pos hw]
      · cases q with
        | root => exact hd
        | chat c => exact hothers c (fun e => hq (congrArg Page.chat e)) hd
    · obtain ⟨hne, hlong⟩ := not_or.mp hw
      rw [Traffic.exec_startChat_long hc hd hne (Bool.eq_false_iff.mpr hlong)]
      refine { h with told := fun p hp hclean x hx => ?_ }
      cases p with
      | root => exact h.told .root hp hclean x hx
      | chat c =>
        by_cases he : c = chat
        · subst he
          -- What is too long to be written has no text to be told of.
          change ((t.storage.store.cached? c).bind _) = _ at hx
          rw [hc, Option.bind_some, if_neg hw] at hx
          cases hx
        · exact h.told (.chat c) hp (hothers c he hclean) x hx

theorem make (h : Told N first t) (n : Nat) : Told N first (exec (Traffic.make n) t).2 := by
  cases hn : t.begun[n]? with
  | none =>
    rw [Traffic.exec_make_none hn]
    exact h
  | some c =>
    by_cases hmade : n ∈ t.made
    · rw [Traffic.exec_make_made hmade]
      exact h
    · obtain ⟨hok, hrefuses, hfind⟩ := Change.apply_accepted h.accepts c
      rw [Traffic.exec_make hn hmade, hok]
      refine { h with accepts := ?_, listed := ?_, once := ?_, shelf := ?_ }
      · exact fun a => (congrFun hrefuses a).trans (h.accepts a)
      · intro m hm
        rcases List.mem_append.mp hm with hm | hm
        · exact h.listed m hm
        · rw [List.mem_singleton.mp hm]
          exact (List.getElem?_eq_some_iff.mp hn).1
      · exact List.nodup_append.mpr ⟨h.once, List.nodup_singleton n, fun a ha b hb he =>
          hmade (List.mem_singleton.mp hb ▸ he ▸ ha)⟩
      · intro name
        have hlist : Traffic.changesMade ⟨t.storage, t.begun, t.made ++ [n]⟩ =
            t.changesMade ++ [c] := by
          unfold Traffic.changesMade
          rw [List.filterMap_append, List.filterMap_cons, hn]
          rfl
        refine (hfind name).trans ?_
        rw [h.shelf name]
        exact ((congrArg (fun l => Change.leave first l name) hlist).trans
          (Change.leave_concat _ c name)).symm

/-! ### Edits -/

/-- A document that is dirty is nothing to be told of. -/
theorem dirtyRoot (h : Told N first t) {root : Option Root} (hroot : root.isSome = true)
    (rootTimer : Option Nat) : Told N first { t with storage := { t.storage with store :=
      { t.storage.store with root := root, rootDirty := true, rootTimer := rootTimer } } } :=
  h.withStore rfl rfl hroot rfl rfl (fun _ => Iff.rfl) h.distinct fun p _ hd => by
    cases p with
    | root => exact absurd rfl hd
    | chat c => exact ⟨hd, fun _ hx => hx⟩

theorem markDirty (h : Told N first t) (chat : String) : Told N first { t with storage :=
    { t.storage with store := t.storage.store.markDirty chat } } :=
  h.withStore rfl rfl h.inMemory rfl rfl (fun _ => Iff.rfl) h.distinct fun p _ hd => by
    refine ⟨fun hdirty => hd ?_, fun x hx => ?_⟩
    · cases p with
      | root => exact hdirty
      | chat c => exact (Store.mem_markDirty c).mpr (Or.inl hdirty)
    · cases p <;> exact hx

/-- Values are put into memory: they wait to be written, or their document holds them. -/
theorem withValues (h : Told N first t) (hc : N.used chat) (vs : ChatValues) {dirty : List String}
    (timer : Option Nat) (hdirty : ∀ c ∈ t.storage.store.dirty, c ∈ dirty)
    (hheld : chat ∉ dirty →
      Change.leave first t.begun (Store.valuesName N.valuesStart chat) = chatText chat vs) :
    Told N first { t with storage := { t.storage with store :=
      { t.storage.store.setValues chat vs with dirty := dirty, valuesTimer := timer } } } := by
  have hcached (c : String) : (t.storage.store.setValues chat vs).cached? c =
      if chat = c then some vs else t.storage.store.cached? c :=
    Store.cached?_setValues t.storage.store chat vs c
  refine { h with used := ?_, distinct := ?_, told := ?_, unread := ?_ }
  · exact fun c hmem => (Json.mem_keys_insert.mp hmem).elim (fun e => e ▸ hc) (h.used c)
  · exact Json.nodup_keys_insert h.distinct chat vs
  · intro p hp hclean x hx
    cases p with
    | root => exact h.told .root hp hclean x hx
    | chat c =>
      change (((t.storage.store.setValues chat vs).cached? c).bind _) = _ at hx
      rw [hcached] at hx
      by_cases he : chat = c
      · subst he
        rw [if_pos rfl, Option.bind_some] at hx
        split at hx
        · exact (hheld hclean).trans (Option.some.inj hx)
        · cases hx
      · rw [if_neg he] at hx
        exact h.told (.chat c) hp (fun hmem => hclean (hdirty c hmem)) x hx
  · exact fun c hused hnone => h.unread c hused fun hmem =>
      hnone (Json.mem_keys_insert.mpr (Or.inr hmem))

/-- Values that are set wait to be written. -/
theorem stored (h : Told N first t) (hc : N.used chat) (vs : ChatValues) :
    Told N first { t with storage := t.storage.stored chat vs } :=
  h.withValues hc vs _ (fun c hmem => (Store.mem_markDirty c).mpr (Or.inl hmem)) fun hout =>
    absurd ((Store.mem_markDirty chat).mpr (Or.inr rfl)) hout

theorem changeRoot (h : Told N first t) (f : Root → Root) :
    Told N first { t with storage := (ended (Storage.changeRoot f) t.storage).2 } := by
  obtain ⟨r, hr⟩ := Option.isSome_iff_exists.mp h.inMemory
  rw [Storage.ended_changeRoot hr f]
  exact h.dirtyRoot rfl _

theorem removeFromChats (id : String) {l : List (String × ChatValues)}
    (hl : ∀ c ∈ l, N.used c.1) {s : Storage} (h : Told N first { t with storage := s }) :
    Told N first { t with storage := (exec (Storage.removeFromChats id l) s).2 } := by
  induction l generalizing s with
  | nil => exact h
  | cons c l ih =>
    obtain ⟨hc, hl⟩ := List.forall_mem_cons.mp hl
    unfold Storage.removeFromChats
    split
    · have hrest := ih hl (h.stored hc (c.2.filter (·.1 != id)))
      have hset : exec (Storage.onStore (·.setValues c.1 (c.2.filter (·.1 != id)))) s =
          (.ok (), { s with store := s.store.setValues c.1 (c.2.filter (·.1 != id)) }) := rfl
      have hsoon : exec (Storage.saveValuesSoon c.1)
          { s with store := s.store.setValues c.1 (c.2.filter (·.1 != id)) } =
          (.ok (), s.stored c.1 (c.2.filter (·.1 != id))) := rfl
      rw [exec_bind_ok hset, exec_bind_ok hsoon, exec_bind]
      rcases hrun : exec (Storage.removeFromChats id l) (s.stored c.1 (c.2.filter (·.1 != id)))
        with ⟨e | n, u⟩
      · rw [hrun] at hrest
        exact hrest
      · rw [hrun] at hrest
        exact hrest
    · exact ih hl h

theorem removeValues (h : Told N first t) (id : String) :
    Told N first { t with storage := (exec (Storage.removeValues id) t.storage).2 } := by
  have hquiet := h.quiet t.storage.store.rootTimer t.storage.store.valuesTimer
    (if t.storage.store.removed.contains id then t.storage.store.removed
      else t.storage.store.removed ++ [id]) t.storage.store.held t.storage.store.granted
    t.storage.clock t.storage.random
  exact hquiet.removeFromChats id fun c hc => h.used c.1 (List.mem_map_of_mem hc)

/-- Nothing was changed of a document that was not read. -/
theorem find?_unread (h : Told N first t) (hc : N.used chat)
    (hnone : chat ∉ Json.keys t.storage.store.values) :
    t.storage.shelf.find? (Store.valuesName N.valuesStart chat) =
      first (Store.valuesName N.valuesStart chat) := by
  rw [h.shelf]
  refine Change.leave_of_others fun c hmade => ?_
  obtain ⟨n, -, hn⟩ := List.mem_filterMap.mp hmade
  exact (h.unread chat hc hnone).1 c (List.mem_of_getElem? hn)

/-- Values that were read are those of the document, or wait to be written. -/
theorem loaded (h : Told N first t) (hc : N.used chat) (r : Root) :
    Told N first { t with storage := (t.storage.loaded r chat).2 } := by
  have husable := Store.usable?_of_not_degraded (h.isDegraded chat)
  cases hcached : t.storage.store.cached? chat with
  | some vs =>
    rw [Storage.loaded_usable (husable.trans hcached)]
    exact h
  | none =>
    have hout : chat ∉ Json.keys t.storage.store.values := Json.find?_eq_none.mp hcached
    obtain ⟨hbegun, vs, hkeys, hw, htext⟩ := h.unread chat hc hout
    rw [Storage.loaded_unusable (husable.trans hcached), h.valuesStart]
    let name := Store.valuesName N.valuesStart chat
    let s : Storage := { t.storage with shelf := (t.storage.shelf.read name).2 }
    have hs : Told N first { t with storage := s } := { h with }
    have hanswer : (t.storage.shelf.read name).1 = .ok (chatText chat vs) := by
      unfold Shelf.read
      rw [h.accepts, h.find?_unread hc hout, htext]
      rfl
    obtain ⟨raw, hraw, hvalues⟩ : ∃ raw, Storage.rawValues? (chatText chat vs) = some raw ∧
        ∀ ctx, Storage.readValues ctx raw = vs := by
      unfold chatText
      split
      · next hempty => exact ⟨[], rfl, fun _ => hempty.symm⟩
      · next hne => exact ⟨_, rawValues?_text hkeys chat (hw.resolve_left hne),
          fun _ => readValues_documents vs⟩
    have hreceived (vs : ChatValues) :
        s.store.received chat vs = s.store.setValues chat vs := by
      have hnone : s.store.degraded = [] := h.readable
      unfold Store.received
      rw [hnone, List.filter_nil, ← hnone]
      rfl
    unfold Storage.looked
    rw [hanswer]
    unfold Storage.taken Storage.rawOf?
    dsimp only
    rw [hraw]
    dsimp only
    change Told N first { t with storage := { s with store := (if s.drops r raw
      then (s.store.received chat (s.kept r raw)).soon chat s.clock.elapsed
      else s.store.received chat (s.kept r raw)) } }
    rw [hreceived]
    split
    · exact hs.stored hc (s.kept r raw)
    · next hdrops =>
      rw [Storage.kept_of_drops (Bool.eq_false_iff.mpr hdrops), hvalues]
      exact hs.withValues hc vs s.store.valuesTimer (fun _ hmem => hmem) fun _ =>
        (Change.leave_of_others hbegun).trans htext

/-- What a reader of values leaves. -/
theorem loadValues (h : Told N first t) (hc : N.used chat) : ∃ vs s,
    ended (Storage.loadValues chat) t.storage = (.ok vs, s) ∧
      Told N first { t with storage := s } := by
  obtain ⟨r, hr⟩ := Option.isSome_iff_exists.mp h.inMemory
  obtain ⟨held, granted, hrun⟩ := Storage.ended_loadValues_eq hr chat
  exact ⟨_, _, hrun, (h.loaded hc r).quiet _ _ _ held granted _ _⟩

theorem setValue (h : Told N first t) (hc : N.used chat) (id : String) (v : Value) :
    Told N first { t with storage := (ended (Storage.setValue id chat v) t.storage).2 } := by
  have hwritable {t : Traffic} (h : Told N first t) :
      ended (liftM (Storage.checkWritable chat)) t.storage = (.ok (), t.storage) := by
    change exec (Storage.checkWritable chat) t.storage = _
    rw [Storage.exec_checkWritable, h.isDegraded]
    rfl
  obtain ⟨vs, u, hrun, hu⟩ := h.loadValues hc
  have hend : ended (Storage.setValue id chat v) t.storage =
      (.ok (), u.stored chat (Json.insert vs id v)) := by
    unfold Storage.setValue
    rw [ended_bind_ok (hwritable h), ended_bind_ok hrun, ended_bind_ok (hwritable hu)]
    rfl
  rw [hend]
  exact hu.stored hc _

theorem editValue (h : Told N first t) (hc : N.used chat) (id : String) (v : Value) :
    Told N first { t with storage := (ended (Storage.editValue id chat v) t.storage).2 } := by
  have husable := Store.usable?_of_not_degraded (h.isDegraded chat)
  cases hcached : t.storage.store.cached? chat with
  | some vs =>
    rw [Storage.ended_editValue_usable (husable.trans hcached)]
    exact h.stored hc _
  | none =>
    have hend : ended (Storage.editValue id chat v) t.storage =
        ended (Storage.setValue id chat v) t.storage := by
      change ended (Storage.setValue id chat v)
        { t.storage with store := t.storage.store.amend id chat v } = _
      rw [Storage.amend_of_not_cached hcached]
    rw [hend]
    exact h.setValue hc id v

end Told

/-! ### Operations -/

/-- The operation writes nothing itself. -/
def StoreOperation.Edits : StoreOperation → Prop
  | .save | .saveValues _ | .flush | .close => False
  | _ => True

theorem Told.edit (h : Told N first t) {op : StoreOperation} (hop : op.Edits)
    (hc : ∀ c ∈ (Operation.ofStore op).chats, N.used c) :
    Told N first { t with storage := (ended op.perform t.storage).2 } := by
  obtain ⟨r, hr⟩ := Option.isSome_iff_exists.mp h.inMemory
  have hload : ended Storage.load t.storage = (.ok r, t.storage) := Storage.ended_load_some hr
  have hsame {α : Type} {x : Activity Storage α}
      (hx : Told N first { t with storage := (ended x t.storage).2 }) :
      Told N first { t with storage := (ended x.silent t.storage).2 } := by
    rw [ended_silent]
    exact hx
  have hlook {α : Type} (f : Root → α) : Told N first { t with storage :=
      (ended (Storage.load >>= fun r => pure (f r)) t.storage).2 } := by
    rw [ended_bind_ok hload]
    exact h
  have hone (c : String) (hmem : ∀ d ∈ [c], N.used d) : N.used c :=
    hmem c (List.mem_singleton_self c)
  have hread (c : String) (hmem : ∀ d ∈ [c], N.used d) : Told N first { t with storage :=
      (ended (Storage.loadValues c) t.storage).2 } := by
    obtain ⟨vs, u, hrun, hu⟩ := h.loadValues (hone c hmem)
    rw [hrun]
    exact hu
  cases op with
  | load =>
    refine hsame ?_
    rw [hload]
    exact h
  | suites => exact hsame (hlook _)
  | definitions => exact hsame (hlook _)
  | settings => exact hsame (hlook _)
  | saveSuites suites => exact h.changeRoot fun r => { r with suites := suites }
  | saveDefinitions ds => exact h.changeRoot fun r => { r with definitions := ds }
  | saveSettings x => exact h.changeRoot fun r => { r with settings := x }
  | save => exact hop.elim
  | saveSoon => exact h.dirtyRoot h.inMemory _
  | loadValues c => exact hsame (hread c hc)
  | getValue id c =>
    refine hsame ?_
    have hsilent : (ended (Storage.getValue id c) t.storage).2 =
        (ended (Storage.loadValues c) t.storage).2 := ended_map_snd _ _ _
    rw [hsilent]
    exact hread c hc
  | setValue id c v => exact h.setValue (hone c hc) id v
  | saveValues c => exact hop.elim
  | saveValuesSoon c => exact (h.markDirty c).quiet _ _ _ _ _ _ _
  | removeValues id => exact hsame (h.removeValues id)
  | flush => exact hop.elim
  | close => exact hop.elim

end TagLedger
