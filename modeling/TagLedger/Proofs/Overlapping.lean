import Mathlib.Logic.Relation
import TagLedger.Proofs.Telling

/-!
# Changes that overlap

Those who edit a store, write its documents and make the changes take turns. Nobody waits for a
change of the same document to be made before the next one begins, so the text that is made last may
be an older one, and then nothing says that the document is to be written again.

    with every wait answered at once, a writer does what the store does         (Writer.mirrors)
    nothing of a clean document under way →
      (it holds what is in memory ↔ the last change made has the text of the last one begun)
      and it does so if its changes were made in the order they were begun in      (Flow.holds_iff)
-/

namespace TagLedger

variable {α β : Type} {N : Naming} {first : String → Option String} {t : Traffic} {s : Storage}

/-! ## Taking turns -/

/-- Wherever an activity that came so far waits or ends, `I` holds, if others keep it meanwhile. -/
inductive Stays (I : Traffic → Prop) : Progress Traffic α → Prop where
  | done {t : Traffic} {result : Except Failure α} (h : I t) : Stays I (.done t result)
  | waits {t : Traffic} {w : Wait} {resume : Signal → Traffic → Progress Traffic α} (h : I t)
      (hresume : ∀ g t, I t → Stays I (resume g t)) : Stays I (.waiting t w resume)

/-- An activity keeps `I` wherever it waits or ends. -/
def Minds (I : Traffic → Prop) (x : Activity Traffic α) : Prop := ∀ t, I t → Stays I (x t)

namespace Stays

variable {I : Traffic → Prop}

theorem attempt {p : Progress Traffic α} (h : Stays I p)
    {k : Except Failure α → Traffic → Progress Traffic β}
    (hk : ∀ result t, I t → Stays I (k result t)) : Stays I (p.attempt k) := by
  induction h with
  | done h => exact hk _ _ h
  | waits h _ ih => exact .waits h fun g t ht => ih g t ht

theorem bind {p : Progress Traffic α} (h : Stays I p) {k : α → Traffic → Progress Traffic β}
    (hk : ∀ a t, I t → Stays I (k a t)) : Stays I (p.bind k) := by
  induction h with
  | @done t result h =>
    cases result with
    | ok a => exact hk a t h
    | error e => exact .done h
  | waits h _ ih => exact .waits h fun g t ht => ih g t ht

end Stays

namespace Minds

variable {I : Traffic → Prop} {x : Activity Traffic α}

theorem pure (a : α) : Minds I (pure a : Activity Traffic α) := fun _ ht => .done ht

theorem throw (e : Failure) : Minds I (throw e : Activity Traffic α) := fun _ ht => .done ht

theorem bind {f : α → Activity Traffic β} (hx : Minds I x) (hf : ∀ a, Minds I (f a)) :
    Minds I (x >>= f) := fun t ht => (hx t ht).bind hf

theorem ofAction {x : Action Traffic α} (hx : ∀ t, I t → I (exec x t).2) :
    Minds I (liftM x : Activity Traffic α) := fun t ht => .done (hx t ht)

theorem pause (w : Wait) : Minds I (Activity.pause w) := fun _ ht =>
  .waits ht fun g u hu => by cases g <;> exact .done hu

theorem getThen {f : Traffic → Activity Traffic α} (h : ∀ t, Minds I (f t)) :
    Minds I (get >>= f) := fun t ht => h t t ht

theorem ite {c : Prop} [Decidable c] {y : Activity Traffic α} (hx : Minds I x) (hy : Minds I y) :
    Minds I (if c then x else y) := by
  split
  · exact hx
  · exact hy

theorem tryCatch {f : Failure → Activity Traffic α} (hx : Minds I x) (hf : ∀ e, Minds I (f e)) :
    Minds I (tryCatch x f) := fun t ht => (hx t ht).attempt fun result u hu => by
  cases result with
  | ok a => exact .done hu
  | error e => exact hf e u hu

end Minds

/-! ### Writers -/

/-- Those who write documents, on request or when a timer ran out. -/
inductive Writer where
  | save
  | saveValues (chat : String)
  | flush
  | close
  | rootTimer
  | valuesTimer

namespace Writer

def perform : Writer → Activity Traffic Unit
  | .save => Traffic.save
  | .saveValues chat => Traffic.saveValues chat
  | .flush => Traffic.flush
  | .close => Traffic.close
  | .rootTimer => Traffic.saveInTurn
  | .valuesTimer => Traffic.saveValuesInTurn

/-- The same where changes are made at once. -/
def atOnce : Writer → Action Storage Unit
  | .save => Storage.save
  | .saveValues chat => Storage.saveValues chat
  | .flush => Storage.flush
  | .close => Storage.close
  | .rootTimer => Storage.saveInTurn
  | .valuesTimer => Storage.saveValuesInTurn

/-- A writer whose changes are made at once does to the storage what the store does. -/
theorem mirrors (w : Writer) : Traffic.Mirrors w.perform w.atOnce := by
  cases w with
  | save => exact .save
  | saveValues chat => exact .saveValues chat
  | flush => exact .flush
  | close => exact .close
  | rootTimer => exact .saveInTurn
  | valuesTimer => exact .saveValuesInTurn

end Writer

namespace Told

theorem minds_complete {spoil : Store → Store}
    (hspoil : ∀ t, Told N first t → Told N first { t with storage :=
      { t.storage with store := spoil t.storage.store } }) (n : Option Nat) :
    Minds (Told N first) (Traffic.complete spoil n) := by
  cases n with
  | none => exact .pure ()
  | some n =>
    refine (Minds.pause .turn).bind fun _ => ?_
    refine (Minds.ofAction fun t ht => ht.make n).bind fun result => ?_
    cases result with
    | ok _ => exact .pure ()
    | error e => exact (Minds.ofAction hspoil).bind fun _ => .throw _

theorem minds_save : Minds (Told N first) Traffic.save :=
  (Minds.ofAction fun _ ht => ht.startRoot).bind
    (minds_complete fun t ht => ht.dirtyRoot ht.inMemory t.storage.store.rootTimer)

theorem minds_saveValues (chat : String) : Minds (Told N first) (Traffic.saveValues chat) :=
  (Minds.ofAction fun _ ht => ht.startChat chat).bind (minds_complete fun _ ht => ht.markDirty chat)

theorem minds_noting {x : Activity Traffic Unit} (hx : Minds (Told N first) x) :
    Minds (Told N first) (Traffic.noting x) := by
  refine (hx.bind fun _ => .pure none).tryCatch fun e => ?_
  cases e with
  | storage e => exact .pure _
  | _ => exact .throw _

theorem minds_saveEach (l : List String) : Minds (Told N first) (Traffic.saveEach l) := by
  induction l with
  | nil => exact .pure _
  | cons c l ih =>
    exact (minds_noting (minds_saveValues c)).bind fun _ => ih.bind fun _ => .pure _

/-- Something that only sets or stops timers. -/
theorem minds_timers {f : Store → Store} (hf : ∀ s : Store, ∃ rootTimer valuesTimer,
    f s = { s with rootTimer := rootTimer, valuesTimer := valuesTimer }) :
    Minds (Told N first) (liftM (Traffic.onStorage (Storage.onStore f)) : Activity Traffic Unit) :=
  .ofAction fun t ht => by
    obtain ⟨rootTimer, valuesTimer, hstore⟩ := hf t.storage.store
    change Told N first { t with storage := { t.storage with store := f t.storage.store } }
    rw [hstore]
    exact ht.quiet rootTimer valuesTimer _ _ _ _ _

theorem minds_dirty : Minds (Told N first)
    (liftM (Traffic.onStorage (Storage.store? (·.dirty))) : Activity Traffic (List String)) :=
  .ofAction fun _ ht => ht

theorem minds_flush : Minds (Told N first) Traffic.flush := by
  have hroot : Minds (Told N first) Traffic.flushRoot :=
    .getThen fun _ => .ite (minds_noting minds_save) (.pure none)
  have hvalues : Minds (Told N first) Traffic.flushValues :=
    (minds_timers fun _ => ⟨_, _, rfl⟩).bind fun _ => minds_dirty.bind minds_saveEach
  have hall : Minds (Told N first) Traffic.flushing :=
    hroot.bind fun _ => hvalues.bind fun _ => .pure _
  refine hall.bind fun faults => ?_
  cases faults with
  | nil => exact .pure ()
  | cons e faults => exact .throw _

/-- Whoever writes keeps the invariant wherever it waits. -/
theorem minds (w : Writer) : Minds (Told N first) w.perform := by
  cases w with
  | save => exact minds_save
  | saveValues chat => exact minds_saveValues chat
  | flush => exact minds_flush
  | close =>
    exact (minds_timers fun _ => ⟨_, _, rfl⟩).bind fun _ => (Minds.pause .turn).bind fun _ =>
      minds_flush
  | rootTimer =>
    refine (minds_timers fun _ => ⟨_, _, rfl⟩).bind fun _ => .getThen fun _ => ?_
    exact .ite (minds_save.tryCatch fun _ => .pure ()) (.pure ())
  | valuesTimer =>
    refine (minds_timers fun _ => ⟨_, _, rfl⟩).bind fun _ => Minds.tryCatch ?_ fun _ => .pure ()
    exact minds_dirty.bind fun dirty => (minds_saveEach dirty).bind fun _ => .pure ()

end Told

/-! ### Turns -/

/-- A storage whose documents are being changed, and those who wait. -/
structure Flow where
  traffic : Traffic
  waiting : List (Signal → Traffic → Progress Traffic Unit)

namespace Flow

/-- Nothing is under way. -/
def still (s : Storage) : Flow := ⟨⟨s, [], []⟩, []⟩

/-- What an activity leaves that goes on until it waits or ends. -/
def after (waiting : List (Signal → Traffic → Progress Traffic Unit)) :
    Progress Traffic Unit → Flow
  | .done t _ => ⟨t, waiting⟩
  | .waiting t _ resume => ⟨t, resume :: waiting⟩

/-- The same with another storage. -/
def withStorage (f : Flow) (s : Storage) : Flow :=
  { f with traffic := { f.traffic with storage := s } }

/-- What happens between waits. -/
inductive Step (N : Naming) (f : Flow) : Flow → Prop where
  | edit (op : StoreOperation) (hop : op.Edits)
      (hc : ∀ c ∈ (Operation.ofStore op).chats, N.used c) :
      Step N f (f.withStorage (ended op.perform f.traffic.storage).2)
  | editValue (id chat : String) (v : Value) (hc : N.used chat) :
      Step N f (f.withStorage (ended (Storage.editValue id chat v) f.traffic.storage).2)
  /-- Somebody asks for documents to be written, or a timer runs out. -/
  | begin (w : Writer) : Step N f (after f.waiting (w.perform f.traffic))
  /-- One who waits goes on, or is cancelled. -/
  | goOn {before later : List (Signal → Traffic → Progress Traffic Unit)}
      {resume : Signal → Traffic → Progress Traffic Unit} (g : Signal)
      (h : f.waiting = before ++ resume :: later) :
      Step N f (after (before ++ later) (resume g f.traffic))
  /-- A worker has changed a document. -/
  | make (n : Nat) : Step N f { f with traffic := (exec (Traffic.make n) f.traffic).2 }
  | elsewhere (clock : Clock) (random : Identifier.Random) :
      Step N f (f.withStorage { f.traffic.storage with clock := clock, random := random })

/-- The invariant, which those who wait will keep. -/
structure Sound (N : Naming) (first : String → Option String) (f : Flow) : Prop where
  told : Told N first f.traffic
  waiting : ∀ resume ∈ f.waiting, ∀ g t, Told N first t → Stays (Told N first) (resume g t)

theorem sound_after {waiting : List (Signal → Traffic → Progress Traffic Unit)}
    {p : Progress Traffic Unit} (hp : Stays (Told N first) p)
    (hwaiting : ∀ resume ∈ waiting, ∀ g t, Told N first t → Stays (Told N first) (resume g t)) :
    Sound N first (after waiting p) := by
  cases hp with
  | done h => exact ⟨h, hwaiting⟩
  | waits h hresume => exact ⟨h, List.forall_mem_cons.mpr ⟨hresume, hwaiting⟩⟩

theorem Sound.step {f g : Flow} (h : f.Sound N first) (hstep : Step N f g) : g.Sound N first := by
  cases hstep with
  | edit op hop hc => exact ⟨h.told.edit hop hc, h.waiting⟩
  | editValue id chat v hc => exact ⟨h.told.editValue hc id v, h.waiting⟩
  | begin w => exact sound_after (Told.minds w f.traffic h.told) h.waiting
  | @goOn before later resume g hwaiting =>
    obtain ⟨htold, hothers⟩ := h
    rw [hwaiting] at hothers
    have hmem : resume ∈ before ++ resume :: later :=
      List.mem_append_right _ List.mem_cons_self
    refine sound_after (hothers resume hmem g f.traffic htold) fun other hother => hothers other ?_
    rcases List.mem_append.mp hother with hother | hother
    · exact List.mem_append_left _ hother
    · exact List.mem_append_right _ (List.mem_cons_of_mem _ hother)
  | make n => exact ⟨h.told.make n, h.waiting⟩
  | elsewhere clock random => exact ⟨h.told.quiet _ _ _ _ _ clock random, h.waiting⟩

theorem Sound.run {f g : Flow} (h : f.Sound N first)
    (hsteps : Relation.ReflTransGen (Step N) f g) : g.Sound N first := by
  induction hsteps with
  | refl => exact h
  | tail _ hstep ih => exact ih.step hstep

end Flow

/-- The documents tell what is in memory where it is clean, and those that were not read are
documents of chats. -/
structure Filed (N : Naming) (s : Storage) : Prop where
  rootName : s.store.rootName = N.rootName
  valuesStart : s.store.valuesStart = N.valuesStart
  accepts : ∀ a, s.shelf.refuses a = false
  inMemory : s.store.root.isSome = true
  unmarked : s.store.rootDegraded = false
  readable : s.store.degraded = []
  used : ∀ c ∈ Json.keys s.store.values, N.used c
  distinct : (Json.keys s.store.values).Nodup
  told : ∀ p : Page, p.Used N → ¬ p.isDirty s.store →
    ∀ x, p.content? s.store = some x → s.shelf.find? (p.name N) = x
  unread : ∀ c, N.used c → c ∉ Json.keys s.store.values →
    ChatValues.Writes c (s.shelf.find? (Store.valuesName N.valuesStart c))

namespace Filed

theorem sound (h : Filed N s) : (Flow.still s).Sound N s.shelf.find? where
  told :=
    { rootName := h.rootName
      valuesStart := h.valuesStart
      accepts := h.accepts
      inMemory := h.inMemory
      unmarked := h.unmarked
      readable := h.readable
      used := h.used
      distinct := h.distinct
      listed := nofun
      once := List.nodup_nil
      shelf := fun _ => rfl
      told := h.told
      unread := fun c hc hnone => ⟨nofun, h.unread c hc hnone⟩ }
  waiting := nofun

/-- A session leaves its documents so. -/
theorem ofSynced {values : List (String × ChatValues)} {held : List (Lock × Nat)}
    (h : Synced N r values held s) : Filed N s where
  rootName := h.rootName
  valuesStart := h.valuesStart
  accepts := h.accepts
  inMemory := by rw [h.inMemory]; rfl
  unmarked := h.unmarked
  readable := h.readable
  used := h.chats ▸ h.contents.used
  distinct := h.chats ▸ h.contents.distinct
  told p hp hclean x hx := by
    cases p with
    | root =>
      change (s.store.root.bind _) = _ at hx
      rw [h.inMemory, Option.bind_some] at hx
      split at hx
      · exact (h.rootWritten (Bool.eq_false_iff.mpr hclean)).trans (Option.some.inj hx)
      · cases hx
    | chat c =>
      change ((s.store.cached? c).bind _) = _ at hx
      obtain ⟨vs, hvs, hx⟩ := Option.bind_eq_some_iff.mp hx
      have hfind : Json.find? s.store.values c = some vs := hvs
      refine (h.written c hp (Or.inl hclean)).trans ?_
      unfold textOf?
      rw [← h.chats, hfind, Option.bind_some]
      split at hx
      · exact Option.some.inj hx
      · cases hx
  unread c hc hnone := by
    refine ⟨[], List.nodup_nil, Or.inl rfl, ?_⟩
    rw [h.written c hc (Or.inr (h.chats ▸ hnone))]
    unfold textOf?
    rw [← h.chats, Json.find?_eq_none.mpr hnone]
    rfl

end Filed

/-! ## The last change -/

namespace Traffic

/-- The change is one of the document with this name. -/
def isOf (t : Traffic) (name : String) (n : Nat) : Bool := (t.begun[n]?).any (·.name = name)

/-- No change of the document is under way. -/
def Quiet (t : Traffic) (name : String) : Prop :=
  ∀ n < t.begun.length, t.isOf name n = true → n ∈ t.made

/-- The changes of the document were made in the order in which they were begun. -/
def InOrder (t : Traffic) (name : String) : Prop := (t.made.filter (t.isOf name)).Pairwise (· < ·)

end Traffic

theorem filter_filterMap_comm {l : List α} (f : α → Option β) (p : β → Bool) :
    (l.filterMap f).filter p = (l.filter fun a => (f a).any p).filterMap f := by
  rw [List.filter_filterMap, List.filterMap_filter]
  refine List.filterMap_congr fun a _ => ?_
  cases f a with
  | none => simp
  | some b => cases hp : p b <;> simp [Option.filter, hp]

/-- A list by its places. -/
theorem filterMap_range (l : List α) : (List.range l.length).filterMap (l[·]?) = l := by
  induction l using List.reverseRecOn with
  | nil => rfl
  | append_singleton l a ih =>
    rw [List.length_append, List.length_singleton, List.range_succ, List.filterMap_append]
    have hsame : (List.range l.length).filterMap ((l ++ [a])[·]?) = l := by
      refine Eq.trans (List.filterMap_congr fun n hn => ?_) ih
      exact List.getElem?_append_left (List.mem_range.mp hn)
    rw [hsame, List.filterMap_cons, List.getElem?_concat_length]
    rfl

namespace Change

/-- Only the changes of the document count. -/
theorem last?_filter (name : String) (changes : List Change) :
    last? name (changes.filter (·.name = name)) = last? name changes := by
  unfold last?
  rw [← List.filter_reverse, List.find?_filter]
  simp

end Change

namespace Traffic

variable {name : String}

/-- The places of the changes of a document. -/
theorem filter_changesMade (t : Traffic) (name : String) :
    t.changesMade.filter (·.name = name) =
      (t.made.filter (t.isOf name)).filterMap (t.begun[·]?) := filter_filterMap_comm _ _

theorem filter_begun (t : Traffic) (name : String) : t.begun.filter (·.name = name) =
    ((List.range t.begun.length).filter (t.isOf name)).filterMap (t.begun[·]?) := by
  refine Eq.trans ?_ (filter_filterMap_comm _ _)
  rw [filterMap_range]

/-- Of a document that is quiet just those changes were made that were begun. -/
theorem perm_of_quiet (hlisted : t.Listed) (honce : t.made.Nodup) (h : t.Quiet name) :
    (t.made.filter (t.isOf name)).Perm ((List.range t.begun.length).filter (t.isOf name)) := by
  refine (List.perm_ext_iff_of_nodup (honce.filter _) (List.nodup_range.filter _)).mpr fun n => ?_
  rw [List.mem_filter, List.mem_filter, List.mem_range]
  constructor
  · rintro ⟨hn, hof⟩
    exact ⟨hlisted n hn, hof⟩
  · rintro ⟨hn, hof⟩
    exact ⟨h n hn hof, hof⟩

/-- The last change that was made is the last one that was begun, if they were made in order. -/
theorem last?_of_inOrder (hlisted : t.Listed) (honce : t.made.Nodup) (h : t.Quiet name)
    (horder : t.InOrder name) :
    Change.last? name t.changesMade = Change.last? name t.begun := by
  have hsame : t.made.filter (t.isOf name) = (List.range t.begun.length).filter (t.isOf name) := by
    refine (perm_of_quiet hlisted honce h).eq_of_pairwise ?_ horder
      (List.pairwise_lt_range.filter _)
    intro a b _ _ hab hba
    omega
  rw [← Change.last?_filter, filter_changesMade, hsame, ← filter_begun, Change.last?_filter]

/-- Some change of a quiet document was made if one was begun. -/
theorem isSome_last? (hlisted : t.Listed) (honce : t.made.Nodup) (h : t.Quiet name) :
    (Change.last? name t.changesMade).isSome = (Change.last? name t.begun).isSome := by
  have hperm : (t.changesMade.filter (·.name = name)).Perm (t.begun.filter (·.name = name)) := by
    rw [filter_changesMade, filter_begun]
    exact (perm_of_quiet hlisted honce h).filterMap _
  rw [← Change.last?_filter name t.changesMade, ← Change.last?_filter name t.begun]
  unfold Change.last?
  rw [Bool.eq_iff_iff, List.find?_isSome, List.find?_isSome]
  simp only [List.mem_reverse, hperm.mem_iff]

end Traffic

/-! ## What the shelf holds -/

/-- When no change of a clean document is under way, the shelf holds what is in memory exactly if
the last change that was made had the text of the last one that was begun, and so if changes of the
document were made in the order in which they were begun. -/
theorem Flow.holds_iff {f : Flow} (hs : Filed N s)
    (hsteps : Relation.ReflTransGen (Flow.Step N) (.still s) f) {p : Page} (hp : p.Used N)
    (hclean : ¬ p.isDirty f.traffic.storage.store) {x : Option String}
    (hx : p.content? f.traffic.storage.store = some x) (hquiet : f.traffic.Quiet (p.name N)) :
    (f.traffic.storage.shelf.find? (p.name N) = x ↔
      (Change.last? (p.name N) f.traffic.changesMade).map (·.text) =
        (Change.last? (p.name N) f.traffic.begun).map (·.text)) ∧
    (f.traffic.InOrder (p.name N) → f.traffic.storage.shelf.find? (p.name N) = x) := by
  have hsound := Flow.Sound.run hs.sound hsteps
  have hshelf := hsound.told.shelf (p.name N)
  have htold := hsound.told.told p hp hclean x hx
  have hsome := Traffic.isSome_last? hsound.told.listed hsound.told.once hquiet
  have hiff : f.traffic.storage.shelf.find? (p.name N) = x ↔
      (Change.last? (p.name N) f.traffic.changesMade).map (·.text) =
        (Change.last? (p.name N) f.traffic.begun).map (·.text) := by
    rw [hshelf, ← htold]
    unfold Change.leave
    cases hmade : Change.last? (p.name N) f.traffic.changesMade with
    | none =>
      cases hbegun : Change.last? (p.name N) f.traffic.begun with
      | none => simp
      | some c =>
        rw [hmade, hbegun] at hsome
        cases hsome
    | some c =>
      cases hbegun : Change.last? (p.name N) f.traffic.begun with
      | none =>
        rw [hmade, hbegun] at hsome
        cases hsome
      | some d => simp
  refine ⟨hiff, fun horder => hiff.mpr ?_⟩
  rw [Traffic.last?_of_inOrder hsound.told.listed hsound.told.once hquiet horder]

namespace Flow

variable {f : Flow} {r : Root}

/-! ### A course of changes -/

theorem edited (N : Naming) (hr : f.traffic.storage.store.root = some r)
    (x : Settings) : ∃ g, Step N f g ∧ g.traffic.begun = f.traffic.begun ∧
      g.traffic.made = f.traffic.made ∧
      g.traffic.storage.store.root = some { r with settings := x } := by
  refine ⟨_, .edit (.saveSettings x) trivial nofun, rfl, rfl, ?_⟩
  have hrun := Storage.ended_changeRoot hr fun r => { r with settings := x }
  exact congrArg (fun p => p.2.store.root) hrun

theorem Sound.beginSave (h : f.Sound N first) (hr : f.traffic.storage.store.root = some r)
    (hw : r.document.writable = true) : ∃ g, Step N f g ∧
      g.traffic.begun = f.traffic.begun ++ [⟨N.rootName, some r.text⟩] ∧
      g.traffic.made = f.traffic.made ∧ g.traffic.storage.store.root = some r ∧
      g.traffic.storage.store.rootDirty = false := by
  have hrun : (liftM Traffic.startRoot : Activity Traffic (Option Nat)) f.traffic = .done _ _ :=
    congrArg (fun p : Except Failure (Option Nat) × Traffic => Progress.done p.2 p.1)
      (Traffic.exec_startRoot hr h.told.unmarked hw)
  have hstep : Step N f (after f.waiting (Traffic.save f.traffic)) := .begin .save
  change Step N f (after f.waiting
    (((liftM Traffic.startRoot : Activity Traffic (Option Nat)) f.traffic).bind _)) at hstep
  rw [hrun, h.told.rootName] at hstep
  exact ⟨_, hstep, rfl, rfl, hr, rfl⟩

theorem Sound.makes (h : f.Sound N first) {n : Nat} {c : Change} (hn : f.traffic.begun[n]? = some c)
    (hnew : n ∉ f.traffic.made) : ∃ g, Step N f g ∧ g.traffic.begun = f.traffic.begun ∧
      g.traffic.made = f.traffic.made ++ [n] ∧
      g.traffic.storage.store = f.traffic.storage.store := by
  have hstep : Step N f _ := .make n
  rw [Traffic.exec_make hn hnew, (Change.apply_accepted h.told.accepts c).1] at hstep
  exact ⟨_, hstep, rfl, rfl, rfl⟩

/-- A change of the root can be overtaken by the next one: two writers take the text of the root one
after the other, and their changes are made the other way round. Then the root is clean, nothing of
it is under way, and its document is the older one. -/
theorem overtaken (hs : Filed N s) (hr : s.store.root = some r) (old new : Settings)
    (hold : Root.document { r with settings := old } |>.writable)
    (hnew : Root.document { r with settings := new } |>.writable) :
    ∃ f, Relation.ReflTransGen (Step N) (still s) f ∧
      f.traffic.storage.store.root = some { r with settings := new } ∧
      f.traffic.storage.store.rootDirty = false ∧ f.traffic.Quiet N.rootName ∧
      f.traffic.storage.shelf.find? N.rootName = some (Root.text { r with settings := old }) := by
  obtain ⟨f₁, h₁, hb₁, hm₁, hr₁⟩ := edited N (f := still s) hr old
  have hs₁ := hs.sound.step h₁
  obtain ⟨f₂, h₂, hb₂, hm₂, hr₂, -⟩ := hs₁.beginSave hr₁ hold
  have hs₂ := hs₁.step h₂
  obtain ⟨f₃, h₃, hb₃, hm₃, hr₃⟩ := edited N hr₂ new
  have hs₃ := hs₂.step h₃
  obtain ⟨f₄, h₄, hb₄, hm₄, hr₄, hd₄⟩ := hs₃.beginSave hr₃ hnew
  have hs₄ := hs₃.step h₄
  rw [hb₃, hb₂, hb₁] at hb₄
  rw [hm₃, hm₂, hm₁] at hm₄
  obtain ⟨f₅, h₅, hb₅, hm₅, hstore₅⟩ := hs₄.makes (n := 1) (by rw [hb₄]; rfl) (by rw [hm₄]; nofun)
  have hs₅ := hs₄.step h₅
  rw [hb₄] at hb₅
  rw [hm₄] at hm₅
  obtain ⟨f₆, h₆, hb₆, hm₆, hstore₆⟩ :=
    hs₅.makes (n := 0) (by rw [hb₅]; rfl) (by rw [hm₅]; simp [still])
  have hs₆ := hs₅.step h₆
  rw [hb₅] at hb₆
  rw [hm₅] at hm₆
  have hstore := hstore₆.trans hstore₅
  refine ⟨f₆, ?_, ?_, ?_, ?_, ?_⟩
  · exact .tail (.tail (.tail (.tail (.tail (.single h₁) h₂) h₃) h₄) h₅) h₆
  · exact (congrArg Store.root hstore).trans hr₄
  · exact (congrArg Store.rootDirty hstore).trans hd₄
  · intro n hn _
    rw [hb₆] at hn
    rw [hm₆]
    simp [still] at hn ⊢
    omega
  · rw [hs₆.told.shelf]
    simp [Change.leave, Change.last?, Traffic.changesMade, hb₆, hm₆, still]

/-- The first writer takes a root that is enabled, and the second one a root that is not. -/
theorem holds_iff_overtaken : ∃ N s f, Filed N s ∧
    Relation.ReflTransGen (Step N) (still s) f ∧
    ¬ Page.root.isDirty f.traffic.storage.store ∧ f.traffic.Quiet N.rootName ∧
    Page.root.content? f.traffic.storage.store = some (some Root.standard.text) ∧
    f.traffic.storage.shelf.find? N.rootName ≠ some Root.standard.text ∧
    ¬ f.traffic.InOrder N.rootName := by
  let N : Naming := .ofChat "dynvar-root.json" "dynvar-values-" "c" (by decide)
  let start : Storage := ⟨.empty N.rootName N.valuesStart 500000 0, .ofDocuments [], ⟨0, 0⟩, .start⟩
  obtain ⟨s, -, hsynced⟩ := Synced.create (N := N) (s := start)
    ⟨fresh_empty _ _ _ _ _ _, fun _ => rfl⟩ fun _ => rfl
  have hs : Filed N s := .ofSynced hsynced
  let on : Settings := { Settings.standard with enabled := true }
  let enabled : Root := { Root.standard with settings := on }
  obtain ⟨f, hsteps, hroot, hclean, hquiet, hheld⟩ :=
    overtaken hs hsynced.inMemory on .standard (by decide) (by decide)
  have hsound : enabled.Sound :=
    Synced.sound_standard.withSettings { Synced.sound_standard.settings with }
  have hother : enabled.text ≠ Root.standard.text := fun htexts => by
    have hsame := Root.eq_of_text hsound Synced.sound_standard (by decide) (by decide) htexts
    exact Bool.false_ne_true (congrArg (·.settings.enabled) hsame).symm
  have hw : Root.standard.document.writable = true := by decide
  have hx : Page.root.content? f.traffic.storage.store = some (some Root.standard.text) := by
    change (f.traffic.storage.store.root.bind _) = _
    rw [hroot, Option.bind_some]
    exact if_pos hw
  have hne : f.traffic.storage.shelf.find? N.rootName ≠ some Root.standard.text := by
    rw [hheld]
    exact fun h => hother (Option.some.inj h)
  have hdirty : ¬ Page.root.isDirty f.traffic.storage.store := fun h => by
    change f.traffic.storage.store.rootDirty = true at h
    rw [hclean] at h
    exact Bool.false_ne_true h
  exact ⟨N, s, f, hs, hsteps, hdirty, hquiet, hx, hne, fun horder =>
    hne ((holds_iff hs hsteps (p := .root) trivial hdirty hx hquiet).2 horder)⟩

end Flow
end TagLedger
