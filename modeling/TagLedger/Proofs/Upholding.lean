import TagLedger.Proofs.Composing
import TagLedger.Proofs.Isolation
import TagLedger.Session.Trigger

/-!
# What turns on a session uphold

Requests and workers take turns on one session. Each goes on until it has to wait, and is woken up
later, or told to give up, in whatever the session has become by then. What all of them leave of the
storage, wherever they wait or end, holds at every moment, whosoever's turn it is.

A session reads suites, stores values and counts messages. What these three keep is upheld by all
that it does. It leaves the items of all suites as they are, so whatever is said of items is upheld.

    x upholds P, and so does f a  →  x >>= f upholds P                         (Upholds.bind)
    P is tended  →  analyses, tasks and new messages uphold P            (Tended.analyze, ...)
-/

namespace TagLedger

variable {α β : Type} {P : Storage → Prop}

/-! ## Turns -/

/-- Wherever an activity that came so far waits or ends, the storage is as `P` says. While it waits,
others leave the storage so. -/
inductive Retains (P : Storage → Prop) : Progress Session α → Prop where
  | done {s : Session} {r : Except Failure α} (hs : P s.storage) : Retains P (.done s r)
  | waits {s : Session} {w : Wait} {k : Signal → Session → Progress Session α} (hs : P s.storage)
      (hk : ∀ g t, P t.storage → Retains P (k g t)) : Retains P (.waiting s w k)

namespace Retains

theorem attempt {p : Progress Session α} (h : Retains P p)
    {k : Except Failure α → Session → Progress Session β}
    (hk : ∀ r s, P s.storage → Retains P (k r s)) : Retains P (p.attempt k) := by
  induction h with
  | done hs => exact hk _ _ hs
  | waits hs _ ih => exact .waits hs ih

theorem bind {p : Progress Session α} (h : Retains P p) {k : α → Session → Progress Session β}
    (hk : ∀ a s, P s.storage → Retains P (k a s)) : Retains P (p.bind k) := by
  induction h with
  | @done s r hs =>
    cases r with
    | ok a => exact hk a s hs
    | error e => exact .done hs
  | waits hs _ ih => exact .waits hs ih

/-- What an activity on the storage keeps, it keeps as a part of a session. -/
theorem zoom (hP : Unlocked P) {f : Option Empty} {p : Progress Storage α}
    (h : Rests (Always P) (fun _ _ => True) f p) (s : Session) :
    Retains P (p.zoom Session.storage (fun x t => { t with storage := x }) s) := by
  induction h generalizing s with
  | done hs _ => exact .done hs
  | @waits f x w k hs _ ih =>
    refine .waits hs fun g t ht => ?_
    cases g with
    | proceed =>
      obtain ⟨granted, hw⟩ := exists_wake w t.storage
      exact ih .proceed none _ _ (hP _ t.storage.store.held granted ht) hw t
    | cancel => exact ih .cancel none t.storage t.storage ht (by cases w <;> rfl) t
  | @holds k => exact k.elim

/-- What stays so is so in the end if every wait is answered at once. -/
theorem finish {p : Progress Session α} (h : Retains P p) : P p.finish.2.storage := by
  induction h with
  | done hs => exact hs
  | @waits s w k hs _ ih => exact ih .proceed s hs

end Retains

/-- Begun with a storage as `P` says, an activity leaves it so wherever it waits or ends. -/
def Upholds (P : Storage → Prop) (x : Activity Session α) : Prop :=
  ∀ s : Session, P s.storage → Retains P (x s)

namespace Upholds

theorem pure (a : α) : Upholds P (pure a : Activity Session α) := fun _ hs => .done hs

theorem fail (e : Failure) : Upholds P (Activity.fail e : Activity Session α) :=
  fun _ hs => .done hs

theorem throw (e : Failure) : Upholds P (throw e : Activity Session α) := fail e

theorem ofExcept {ε : Type} (f : ε → Failure) (r : Except ε α) :
    Upholds P (Activity.ofExcept f r : Activity Session α) := by
  cases r with
  | ok a => exact .pure a
  | error e => exact .fail _

/-- A change of the session that leaves the storage alone. -/
theorem modify {f : Session → Session} (h : ∀ s, (f s).storage = s.storage) :
    Upholds P (modify f : Activity Session Unit) := fun s hs => .done ((h s).symm ▸ hs)

/-- The same with an answer. -/
theorem modifyGet {f : Session → α × Session} (h : ∀ s, (f s).2.storage = s.storage) :
    Upholds P (modifyGet f : Activity Session α) := fun s hs => .done ((h s).symm ▸ hs)

theorem pause (w : Wait) : Upholds P (Activity.pause w : Activity Session Unit) := fun _ hs =>
  .waits hs fun g _ ht => by cases g <;> exact .done ht

theorem bind {x : Activity Session α} {k : α → Activity Session β} (hx : Upholds P x)
    (hk : ∀ a, Upholds P (k a)) : Upholds P (x >>= k) :=
  fun s hs => (hx s hs).bind fun a t ht => hk a t ht

theorem map {x : Activity Session α} (hx : Upholds P x) (f : α → β) : Upholds P (f <$> x) :=
  hx.bind fun a => .pure (f a)

theorem getThen {k : Session → Activity Session β} (hk : ∀ s, Upholds P (k s)) :
    Upholds P (get >>= k) := fun s hs => hk s s hs

theorem ite {c : Prop} [Decidable c] {x y : Activity Session α} (hx : Upholds P x)
    (hy : Upholds P y) : Upholds P (if c then x else y) := by
  split
  · exact hx
  · exact hy

theorem tryCatch {x : Activity Session α} {handle : Failure → Activity Session α}
    (hx : Upholds P x) (hhandle : ∀ e, Upholds P (handle e)) :
    Upholds P (tryCatch x handle) := fun s hs => (hx s hs).attempt fun r t ht => by
  cases r with
  | ok a => exact .done ht
  | error e => exact hhandle e t ht

theorem ensuring {x : Activity Session α} {f : Session → Session} (hx : Upholds P x)
    (h : ∀ s, (f s).storage = s.storage) :
    Upholds P (x.ensuring (MonadStateOf.modifyGet fun s => ((), f s) : Action Session Unit)) :=
  fun s hs => (hx s hs).attempt fun _ t ht => .done ((h t).symm ▸ ht)

/-- What is kept on the storage is upheld in the session. -/
theorem stored (hP : Unlocked P) {x : Activity Storage α} (hx : Keeps (Always P) x) :
    Upholds P (Session.stored x) := fun s hs => .zoom hP (hx none s.storage hs) s

end Upholds

/-- What is done at once with the storage is done at once by the session. -/
theorem AtOnce.stored {E : Storage → Prop} {x : Activity Storage α} {Q : α → Storage → Prop}
    (hx : AtOnce E P x Q) : AtOnce (E ∘ Session.storage) (P ∘ Session.storage) (Session.stored x)
      fun a s => Q a s.storage := fun s hs => by
  change (∃ a t, (x s.storage).zoom _ _ s = _ ∧ _) ∨ ∃ e t, (x s.storage).zoom _ _ s = _ ∧ _
  rcases hx s.storage hs with ⟨a, t, hrun, hq⟩ | ⟨e, t, hrun, he⟩
  · rw [hrun]
    exact .inl ⟨a, _, rfl, hq⟩
  · rw [hrun]
    exact .inr ⟨e, _, rfl, he⟩

/-! ## What may be upheld -/

theorem Upholds.resolve (chat : String) (messages : List Message) (template : String) :
    Upholds P (Session.resolve chat messages template) := .getThen fun _ => .ofExcept _ _

/-- The model may have to be waited for. -/
theorem Upholds.gated {p : Prop} [Decidable p] {act : Activity Session α} (h : Upholds P act) :
    Upholds P (if p then Activity.pause .gate >>= fun _ => act else act) :=
  .ite ((Upholds.pause .gate).bind fun _ => h) h

/-- `P` is kept when values are read and stored and when messages are counted. -/
structure Tended (P : Storage → Prop) : Prop where
  unlocked : Unlocked P
  pieces : Pieces .ofValues (Always P)
  saveCounts : Upholds P Session.saveCounts

namespace Tended

variable (h : Tended P)

include h

theorem stored {x : Activity Storage α} (hx : Keeps (Always P) x) : Upholds P (Session.stored x) :=
  Upholds.stored h.unlocked hx

theorem settings : Upholds P (Session.stored Storage.settings) := h.stored h.pieces.settings

theorem suites : Upholds P (Session.stored Suites.list) :=
  h.stored (h.pieces.suites.bind fun _ => .pure _)

theorem suite (id : String) : Upholds P (Session.stored (Suites.find? id)) :=
  h.stored (h.pieces.suites.bind fun _ => .pure _)

theorem warm (chat : String) : Upholds P (Session.stored (Variables.warm chat)) :=
  h.stored (h.pieces.load.bind fun _ => (h.pieces.loadValues trivial).bind fun _ => .pure _)

/-! ### Analyses -/

omit h in
theorem itemText (c : Chat) (i : Item) : Upholds P (Session.itemText c i) := by
  unfold Session.itemText
  cases i with
  | prompt p => exact (Upholds.resolve c.id c.messages p.content).bind fun _ => .pure _
  | chat item => exact .getThen fun s => (Upholds.ofExcept _ _).bind fun _ => .pure _
  | character item => exact .ite (.pure _) (.getThen fun s => .pure _)
  | _ => exact .pure _

omit h in
theorem itemTexts (c : Chat) (items : List Item) : Upholds P (Session.itemTexts c items) := by
  induction items with
  | nil => exact .pure _
  | cons i items ih => exact (itemText c i).bind fun _ => ih.bind fun _ => .pure _

theorem prompt (suiteId : String) (c : Chat) : Upholds P (Session.prompt suiteId c) :=
  (h.stored ((h.pieces.suites.bind fun _ => .pure _).bind fun _ => .pure _)).bind
    fun items => (itemTexts c items).bind fun _ => .pure _

theorem definitionsOf (ids : List String) : Keeps (Always P) (Session.definitionsOf ids) := by
  induction ids with
  | nil => exact .pure _
  | cons id ids ih =>
    exact (h.pieces.definitions.bind fun _ => .pure _).bind fun _ =>
      ih.bind fun _ => .pure _

theorem enabledDefinitions (suiteId : String) :
    Upholds P (Session.enabledDefinitions suiteId) :=
  h.stored (((h.pieces.suites.bind fun _ => .pure _).bind fun _ => .pure _).bind
    fun ids => h.definitionsOf ids)

omit h in
theorem askRehearsal (text : String) : Upholds P (Session.askRehearsal text) :=
  Upholds.bind (.modify fun _ => rfl) fun _ => .getThen fun _ =>
    .gated (Upholds.bind (.modifyGet fun _ => rfl) fun _ => .pure _)

omit h in
theorem askEndpoint (client : Completion.Client) (text : String) :
    Upholds P (Session.askEndpoint client text) := by
  refine Upholds.bind (.modifyGet fun _ => rfl) fun reply => ?_
  split <;> exact .pure _

theorem otherEndpoint : Upholds P Session.otherEndpoint? := by
  refine .getThen fun s => ?_
  split
  · exact .pure _
  · exact h.settings.bind fun _ => .pure _

omit h in
/-- What was answered is given after the call was noted. -/
theorem told (reply : Except Failure String) {note : String → Activity Session Unit}
    {noteFault : CompletionFault → Activity Session Unit} (hnote : ∀ t, Upholds P (note t))
    (hfault : ∀ fault, Upholds P (noteFault fault)) :
    Upholds P (match reply with
      | .ok t => do
        note t
        return t
      | .error (.completion fault) => do
        noteFault fault
        throw (.completion fault)
      | .error e => throw e) := by
  split
  · exact (hnote _).bind fun _ => .pure _
  · exact (hfault _).bind fun _ => .throw _
  · exact .throw _

theorem ask (suite : Suite) (chat floors text : String) :
    Upholds P (Session.ask suite chat floors text) := by
  refine h.otherEndpoint.bind fun client => ?_
  cases client with
  | some client =>
    refine (askEndpoint client text).bind fun answered => ?_
    exact told answered.reply (fun _ => .modify fun _ => rfl) fun _ => .modify fun _ => rfl
  | none =>
    refine (askRehearsal text).bind fun answered => ?_
    exact told answered.reply (fun _ => .modify fun _ => rfl) fun _ => .modify fun _ => rfl

omit h in
theorem readReply (ds : List Definition) (floors response : String) :
    Upholds P (Session.readReply ds floors response) :=
  Upholds.bind (.modify fun _ => rfl) fun _ => .pure _

theorem analyzeNow (suiteId : String) (c : Chat) : Upholds P (Session.analyzeNow suiteId c) := by
  refine (h.suite suiteId).bind fun found => ?_
  split
  · exact .pure _
  refine (h.warm c.id).bind fun _ => (h.prompt _ c).bind fun p => .ite (.pure _) ?_
  refine Upholds.bind (.modify fun _ => rfl) fun _ => ?_
  refine (h.enabledDefinitions suiteId).bind fun ds => .ite (.pure _) ?_
  refine (((h.ask _ c.id p.2 _).map _).tryCatch fun e => ?_).bind fun reply => ?_
  · split
    · exact .pure _
    · exact .throw _
  · split
    · exact .pure _
    · exact readReply ds p.2 _

theorem analyze (suiteId : String) (c : Chat) : Upholds P (Session.analyze suiteId c) := by
  refine .getThen fun s => .ite (.pure _) ?_
  exact Upholds.bind (.modify fun _ => rfl) fun _ => (h.analyzeNow suiteId c).ensuring fun _ => rfl

theorem assign (chat floors : String) (rs : List Tagged) :
    Upholds P (Session.assign chat floors rs) := by
  induction rs with
  | nil => exact .pure _
  | cons r rs ih =>
    refine (h.stored ?_).bind fun _ => ih.bind fun _ => .pure _
    exact h.pieces.assignOne trivial (fun _ => trivial) floors r

theorem run (suiteId : String) (c : Chat) : Upholds P (Session.run suiteId c) :=
  (h.analyze suiteId c).bind fun r =>
    .ite (.pure _) ((h.assign c.id _ r.results).bind fun _ => .pure _)

theorem apply (content suiteId chat : String) (length : Int) :
    Upholds P (Session.apply content suiteId chat length) := by
  refine (h.enabledDefinitions suiteId).bind fun ds => .ite (.pure _) (.ite (.pure _) ?_)
  refine .getThen fun s => (h.assign chat _ _).bind fun n => ?_
  exact Upholds.bind (.modify fun _ => rfl) fun _ => .pure _

/-! ### Tasks -/

theorem enqueue (suiteId : String) (c : Chat) (name : String) (cause : TriggerKind)
    (useSnapshot : Option Bool) :
    Upholds P (Session.enqueue suiteId c name cause useSnapshot) := by
  refine (h.stored (.ofAction (h.pieces.newId "task" 9))).bind fun id => ?_
  refine (h.stored (.ofAction .now)).bind fun now => ?_
  exact Upholds.bind (.modify fun _ => rfl) fun _ => .pure _

omit h in
theorem chatFrom (t : Task) : Upholds P (Session.chatFrom Session.hostFetch t) := by
  refine .getThen fun s => ?_
  split
  · exact (Upholds.pure none).bind fun _ => .pure _
  · exact Upholds.bind (.getThen fun s => .pure _) fun _ => .pure _

theorem runOn (t : Task) (c : Chat) : Upholds P (Session.runOn t c) :=
  (h.run t.suiteId c).bind fun _ => Upholds.bind (.modify fun _ => rfl) fun _ => .pure _

theorem runTask (w : Nat) (t : Task) : Upholds P (Session.runTask Session.hostFetch w t) := by
  refine (chatFrom t).bind fun c => Upholds.bind (.modify fun _ => rfl) fun _ => ?_
  exact (Upholds.pause .turn).bind fun _ => h.runOn t c

theorem work (w : Nat) (t : Task) : Upholds P (Session.work Session.hostFetch w t) := by
  refine Upholds.bind (.modify fun _ => rfl) fun _ => ?_
  refine (((h.runTask w t).map _).tryCatch fun _ => .pure _).bind fun _ => ?_
  exact .modify fun _ => rfl

/-! ### Messages -/

theorem loadCounts : Upholds P Session.loadCounts := by
  refine .getThen fun s => .ite ?_ (.pure _)
  exact h.settings.bind fun _ => .modify fun _ => rfl

theorem notice (c : Chat) (newest : String) (s : Suite) :
    Upholds P (Session.notice c newest s) := by
  have hqueued (cause : TriggerKind) : Upholds P (Session.enqueueSuite s c cause) :=
    h.enqueue s.id c s.name cause s.useSnapshot
  unfold Session.notice
  refine .ite (.pure _) ?_
  split
  · exact .pure _
  · exact .ite ((hqueued _).map _) (.pure _)
  · refine Upholds.bind (.modify fun _ => rfl) fun _ => .getThen fun t => .ite (.pure _) ?_
    exact (hqueued _).bind fun task => Upholds.bind (.modify fun _ => rfl) fun _ => .pure _

theorem noticeAll (c : Chat) (newest : String) (suites : List Suite) :
    Upholds P (Session.noticeAll c newest suites) := by
  induction suites with
  | nil => exact .pure _
  | cons s suites ih => exact (h.notice c newest s).bind fun _ => ih.bind fun _ => .pure _

theorem newMessage (c : Chat) : Upholds P (Session.newMessage c) := by
  refine h.loadCounts.bind fun _ => h.settings.bind fun settings => .ite (.pure _) ?_
  refine h.suites.bind fun list => (h.noticeAll c _ list).bind fun tasks => ?_
  split
  · exact h.saveCounts.bind fun _ => .pure _
  · exact .pure _

theorem trigger (suiteId : String) (c : Chat) (cause : TriggerKind) :
    Upholds P (Session.trigger suiteId c cause) := by
  refine (h.suite suiteId).bind fun found => ?_
  split
  · exact .pure _
  · exact (h.enqueue _ c _ cause _).map _

end Tended

/-! ## Items -/

/-- An activity leaves all suites with items as `Q` says. -/
abbrev Furnishes (Q : List Item → Prop) (x : Activity Session α) : Prop :=
  Upholds (Storage.Furnished Q) x

theorem Storage.Furnished.tended {Q : List Item → Prop} : Tended (Furnished Q) where
  unlocked := unlocked
  pieces := pieces
  saveCounts := (Upholds.stored unlocked pieces.settings).bind fun _ => .getThen fun _ =>
    Upholds.stored unlocked (saveSettings _)

end TagLedger
