import TagLedger.Proofs.Edits
import TagLedger.Session.Schedule

/-!
# Closing and opening anew

A session begins where nothing is, or on an older root document, and nothing is refused while it
lasts. It may be asked for operations one after another, new messages come in, suites are triggered,
replies are stored, and time passes. When it is closed, a new store on its documents shows the same
definitions, suites, settings and values as the session did.

    Reached N s → `s` closes well, and a new store shows what `s` shows     (Reached.shown_anew)
-/

namespace TagLedger

open Storage

variable {N : Naming} {r : Root} {chat : String} {α β : Type}

/-! ## Triples on sessions -/

/-- No suite is counted twice, and none twice for a chat. -/
structure MessageCounts.Sound (counts : MessageCounts) : Prop where
  suites : (Json.keys counts).Nodup
  chats : ∀ m ∈ counts, (Json.keys m.2).Nodup

/-- The storage of a session is as `P` says, and its counts can be put into the settings. -/
def At (P : Storage → Prop) (s : Session) : Prop := P s.storage ∧ s.counter.counts.Sound

theorem ended_stored (x : Activity Storage α) (s : Session) : ended (Session.stored x) s =
    ((ended x s.storage).1, { s with storage := (ended x s.storage).2 }) :=
  finish_zoom Session.storage (fun t s => { s with storage := t }) (fun _ _ => rfl)
    (fun _ _ _ => rfl) _ s

/-- What was asked of a session leaves it as it should be. -/
abbrev Serves (N : Naming) (r : Root) (x : Activity Session α) : Prop :=
  Meets (At (Settled N)) (At (Open N r)) x fun _ => At (Settled N)

/-- What was asked of a session leaves the root in place. -/
abbrev Watching (N : Naming) (r : Root) (x : Activity Session α) : Prop :=
  Meets (At (Settled N)) (At (Open N r)) x fun _ => At (Open N r)

namespace Meets

theorem stored {E P : Storage → Prop} {Q : α → Storage → Prop} {x : Activity Storage α}
    (h : Meets E P x Q) : Meets (At E) (At P) (Session.stored x) fun a => At (Q a) := by
  intro s hs
  have hx := h s.storage hs.1
  rw [ended_stored]
  rcases hrun : ended x s.storage with ⟨a, t⟩
  rw [hrun] at hx
  cases a with
  | ok a => exact ⟨hx, hs.2⟩
  | error e => exact ⟨hx, hs.2⟩

/-- Something that keeps the root in place, and then goes on with what it gave. -/
theorem storedThen {x : Activity Storage α} {A : α → Prop} {f : α → Activity Session β}
    {Q : β → Session → Prop} (hx : Keeping N r x A)
    (hf : ∀ a, A a → Meets (At (Settled N)) (At (Open N r)) (f a) Q) :
    Meets (At (Settled N)) (At (Open N r)) (Session.stored x >>= f) Q :=
  hx.stored.bind fun a s hs => hf a hs.1.1 s ⟨hs.1.2, hs.2⟩

/-- Looks at the state, and goes on with it. -/
theorem look {σ : Type} {E P : σ → Prop} {Q : α → σ → Prop} {f : σ → Activity σ α}
    (h : ∀ s, P s → Meets E P (f s) Q) : Meets E P (get >>= f) Q := fun s hs => h s hs s hs

end Meets

theorem At.settled {s : Session} (h : At (Open N r) s) : At (Settled N) s := ⟨h.1.settled, h.2⟩

theorem Watching.serves {x : Activity Session α} (h : Watching N r x) : Serves N r x :=
  h.mono (fun _ hs => hs) fun _ _ hs => hs.settled

theorem Serves.silent {x : Activity Session α} (h : Serves N r x) : Serves N r x.silent :=
  Meets.silent h

/-! ## Messages -/

theorem MessageCounts.Sound.setCount {counts : MessageCounts} (h : counts.Sound)
    (suiteId chat : String) (n : Int) : (Session.setCount counts suiteId chat n).Sound := by
  have hold : (Json.keys ((Json.find? counts suiteId).getD [])).Nodup := by
    cases hfind : Json.find? counts suiteId with
    | none => exact List.nodup_nil
    | some m => exact h.chats _ (Json.mem_of_find? hfind)
  refine ⟨Json.nodup_keys_insert h.suites _ _, fun m hm => ?_⟩
  rcases Json.mem_insert hm with rfl | hm
  · exact Json.nodup_keys_insert hold chat n
  · exact h.chats m hm

namespace Session

theorem watching_onCounts {f : MessageCounts → MessageCounts}
    (h : ∀ counts : MessageCounts, counts.Sound → (f counts).Sound) :
    Watching N r (.ofAction (onCounts f)) := fun _ hs => ⟨hs.1, h _ hs.2⟩

theorem watching_enqueueSuite (s : Suite) (c : Chat) (cause : TriggerKind) :
    Watching N r (enqueueSuite s c cause) := by
  unfold enqueueSuite enqueue
  refine .storedThen (Keeping.newId "task" 9) fun id _ => ?_
  refine .storedThen Keeping.now fun now _ => ?_
  exact fun _ hs => hs

theorem watching_loadCounts : Watching N r loadCounts := by
  unfold loadCounts
  refine .look fun s _ => ?_
  split
  · refine Keeping.settings.stored.bind fun x t ht => ?_
    obtain ⟨⟨hx, hopen⟩, -⟩ := ht
    subst hx
    have hsettings := hopen.sound.settings
    exact ⟨hopen, hsettings.suites, hsettings.chats⟩
  · exact .pure fun _ hs => hs

theorem serves_saveCounts : Serves N r saveCounts := by
  unfold saveCounts
  refine .storedThen Keeping.settings fun x hx => ?_
  subst hx
  refine .look fun s hs => ?_
  have hx : Settles N r (Storage.saveSettings { r.settings with counts := s.counter.counts }) :=
    .changing (fun h => h.withSettings
      { api := h.settings.api, suites := hs.2.suites, chats := hs.2.chats }) (List.Subset.refl _)
  exact hx.stored

theorem watching_notice (c : Chat) (newest : String) (s : Suite) :
    Watching N r (notice c newest s) := by
  unfold notice
  split
  · exact .pure fun _ hs => hs
  split
  · exact .pure fun _ hs => hs
  · exact .ite ((watching_enqueueSuite s c .keyword).bind fun _ => .pure fun _ hs => hs)
      (.pure fun _ hs => hs)
  · refine (watching_onCounts fun _ h => h.setCount s.id c.id _).bind fun _ => ?_
    refine .look fun t _ => ?_
    refine .ite (.pure fun _ hs => hs) ?_
    refine (watching_enqueueSuite s c .interval).bind fun task => ?_
    exact (watching_onCounts fun _ h => h.setCount s.id c.id 0).bind fun _ => .pure fun _ hs => hs

theorem watching_noticeAll (c : Chat) (newest : String) (suites : List Suite) :
    Watching N r (noticeAll c newest suites) := by
  induction suites with
  | nil => exact .pure fun _ hs => hs
  | cons s suites ih =>
    unfold noticeAll
    exact (watching_notice c newest s).bind fun _ => ih.bind fun _ => .pure fun _ hs => hs

theorem serves_newMessage (c : Chat) : Serves N r (newMessage c) := by
  unfold newMessage
  refine watching_loadCounts.bind fun _ => ?_
  refine .storedThen Keeping.settings fun x _ => ?_
  split
  · exact .pure fun _ hs => hs.settled
  have hlist : Keeping N r Suites.list fun _ => True := Keeping.suites.bind fun _ _ => .pure trivial
  refine .storedThen hlist fun suites _ => ?_
  refine (watching_noticeAll c _ suites).bind fun tasks => ?_
  split
  · exact serves_saveCounts.bind fun _ => fun _ hs => hs
  · exact .pure fun _ hs => hs.settled

theorem serves_trigger (suiteId : String) (c : Chat) (cause : TriggerKind) :
    Serves N r (trigger suiteId c cause) := by
  unfold trigger
  have hfind : Keeping N r (Suites.find? suiteId) fun _ => True :=
    Keeping.suites.bind fun _ _ => .pure trivial
  refine .storedThen hfind fun s _ => ?_
  split
  · exact .pure fun _ hs => hs.settled
  · exact Watching.serves ((watching_enqueueSuite _ c cause).bind fun _ => .pure fun _ hs => hs)

theorem serves_resetCount (suiteId chat : String) : Serves N r (resetCount suiteId chat) := by
  unfold resetCount
  refine .look fun s _ => .ite ?_ (.pure fun _ hs => hs.settled)
  refine (watching_onCounts fun _ h => h.setCount suiteId chat 0).bind fun _ => ?_
  exact serves_saveCounts

/-! ## Replies -/

theorem keeping_assignOne (hnamed : ∀ d ∈ r.definitions, d.2.id ∈ Json.keys r.definitions)
    (hc : N.used chat) (floors : String) (t : Tagged) :
    Keeping N r (assignOne chat floors t) fun _ => True := by
  have hfind : Keeping N r (Variables.findByTag? t.tag) fun d =>
      ∀ x, d = some x → x.id ∈ Json.keys r.definitions := by
    refine Keeping.definitions.bind fun ds hds => .pure fun x hx => ?_
    subst hds
    obtain ⟨d, hd, rfl⟩ := List.mem_map.mp (List.mem_of_find?_eq_some hx)
    exact hnamed d hd
  unfold assignOne
  refine hfind.bind fun d hd => ?_
  split
  · exact .pure trivial
  next d =>
  have hid := hd d rfl
  split
  · exact (Settles.addEntry hc hid t.content floors).bind fun _ _ => .pure trivial
  · exact (Settles.put hc hid t.content floors).bind fun _ _ => .pure trivial

theorem watching_assign (hnamed : ∀ d ∈ r.definitions, d.2.id ∈ Json.keys r.definitions)
    (hc : N.used chat) (floors : String) (results : List Tagged) :
    Watching N r (assign chat floors results) := by
  induction results with
  | nil => exact .pure fun _ hs => hs
  | cons t results ih =>
    unfold assign
    refine .storedThen (keeping_assignOne hnamed hc floors t) fun here _ => ?_
    exact ih.bind fun _ => .pure fun _ hs => hs

end Session

/-- A reply is stored where its tag says, if that is in scope. -/
theorem Pieces.assignOne {κ : Type} {S : Scope} {I : Option κ → Storage → Prop} (h : Pieces S I)
    (hr : S.reads chat) (hsets : ∀ id, S.sets id chat) (floors : String) (t : Tagged) :
    Keeps I (Session.assignOne chat floors t) := by
  have hcomposed : Compositional fun _ x => Keeps I x := .keeps
  unfold Session.assignOne
  refine (h.definitions.bind fun ds => .pure _).bind fun d => ?_
  split
  · exact .pure _
  next d =>
  have hedit (v : Value) : Keeps I (Storage.editValue d.id chat v) := h.editValue hr (hsets _) v
  split
  · exact Keeps.bind (hcomposed.addEntry (h.loadValues hr) (fun _ => hedit _) _ _) fun _ => .pure _
  · exact Keeps.bind (hcomposed.put (h.loadValues hr) (fun _ => hedit _) _ _) fun _ => .pure _

/-! ## What a session is asked for -/

inductive SessionOperation where
  | ofStorage (op : Operation)
  | newMessage (c : Chat)
  | trigger (suiteId : String) (c : Chat) (cause : TriggerKind)
  | resetCount (suiteId chat : String)
  | assign (chat floors : String) (results : List Tagged)

namespace SessionOperation

def perform : SessionOperation → Activity Session Unit
  | .ofStorage op => Session.stored op.perform
  | .newMessage c => (Session.newMessage c).silent
  | .trigger suiteId c cause => (Session.trigger suiteId c cause).silent
  | .resetCount suiteId chat => Session.resetCount suiteId chat
  | .assign chat floors results => (Session.assign chat floors results).silent

/-- The chats that values are read or written of. -/
def chats : SessionOperation → List String
  | .ofStorage op => op.chats
  | .assign chat _ _ => [chat]
  | _ => []

/-- What an operation is asked to store is sound, and is for variables that are defined. -/
def Fits (s : Session) : SessionOperation → Prop
  | .ofStorage op => op.Fits s.storage
  | .assign _ _ _ => ∀ r, s.storage.store.root = some r →
    ∀ d ∈ r.definitions, s.storage.Defines d.2.id
  | _ => True

theorem settled {op : SessionOperation} {s : Session} (h : At (Settled N) s)
    (hl : s.storage.InLimit) (hc : ∀ c ∈ op.chats, N.used c) (hfits : op.Fits s) :
    At (Settled N) (ended op.perform s).2 := by
  obtain ⟨⟨r, hopen⟩, hcounts⟩ := h
  have hserves {α : Type} {x : Activity Session α} (hx : Serves N r x) :
      At (Settled N) (ended x s).2 := Meets.iff_left.mp hx s ⟨hopen, hcounts⟩
  cases op with
  | ofStorage op =>
    rw [perform, ended_stored]
    exact ⟨hopen.perform hl hc hfits, hcounts⟩
  | newMessage c => exact hserves (Session.serves_newMessage c).silent
  | trigger suiteId c cause => exact hserves (Session.serves_trigger suiteId c cause).silent
  | resetCount suiteId chat => exact hserves (Session.serves_resetCount suiteId chat)
  | assign chat floors results =>
    have hnamed : ∀ d ∈ r.definitions, d.2.id ∈ Json.keys r.definitions := fun d hd =>
      hopen.defines (hfits r hopen.inMemory d hd)
    have hx := Session.watching_assign hnamed (hc chat (List.mem_singleton_self _)) floors results
    exact hserves hx.serves.silent

end SessionOperation

/-! ## Sessions -/

namespace Session

variable {s : Session}

end Session

/-! ## Opening anew -/

end TagLedger
