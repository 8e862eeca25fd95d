import TagLedger.Proofs.Analysing
import TagLedger.Session.Sending

/-!
# Turns

An activity goes on in turns. A turn begins when the activity is called, or when it is woken up from
a wait, and lasts until it waits again or ends; in between, others may change the state in any way.
What the turns may do is said by a rule. It names places at which an activity may wait, so that what
a turn may do can depend on the turns before.

    x follows T, what T allows may be followed by f as U allows  →  x >>= f follows U   (Follows.bind)

Here it is said what an analysis does, and what a worker does with a task. Both leave the queue alone
but for what they have to tell it. Who waits while it has the analyzer, or while it stores what was
read, gives up at once if that is asked for.

    run and analyze follow AnalysisTurn                 (follows_run, follows_analyze)
    runTask follows ErrandTurn                          (follows_runTask)
-/

namespace TagLedger

/-! ## Rules -/

/-- How a turn ends: with a wait at a place, or with a result. -/
inductive Halt (M α : Type) where
  | waits (place : M)
  | ends (result : Except Failure α)

/-- What a turn may do that begins at a place, with a signal, in a state. -/
abbrev Rule (σ M α : Type) := M → Signal → σ → Halt M α → σ → Prop

/-- An activity that came so far in a turn did what the rule allows, and so will all its turns. -/
inductive Follows {σ M α : Type} (T : Rule σ M α) : M → Signal → σ → Progress σ α → Prop where
  | done {m : M} {g : Signal} {s t : σ} {r : Except Failure α} :
      T m g s (.ends r) t → Follows T m g s (.done t r)
  | waits {m n : M} {g : Signal} {s t : σ} {w : Wait} {k : Signal → σ → Progress σ α} :
      T m g s (.waits n) t → (∀ g u, Follows T n g u (k g u)) → Follows T m g s (.waiting t w k)

namespace Follows

variable {σ τ M N α β : Type} {T : Rule σ M α} {U : Rule σ N β} {m : M} {g : Signal} {s : σ}
  {p : Progress σ α}

/-- Only the turn that is under way is seen in another way. -/
theorem first (h : Follows T m g s p) {n : M} {f : Signal} {u : σ}
    (hT : ∀ o t, T m g s o t → T n f u o t) : Follows T n f u p := by
  cases h with
  | done hd => exact .done (hT _ _ hd)
  | waits hw hk => exact .waits (hT _ _ hw) hk

/-- The same turns, with other names for the places. -/
theorem relabel {U : Rule σ N α} (h : Follows T m g s p) (place : M → N)
    (hwaits : ∀ m g s n t, T m g s (.waits n) t → U (place m) g s (.waits (place n)) t)
    (hends : ∀ m g s r t, T m g s (.ends r) t → U (place m) g s (.ends r) t) :
    Follows U (place m) g s p := by
  induction h with
  | done hd => exact .done (hends _ _ _ _ _ hd)
  | waits hw _ ih => exact .waits (hwaits _ _ _ _ _ hw) ih

/-- After an activity others go on, whatever it ended with. -/
theorem attempt (h : Follows T m g s p) (place : M → N)
    {k : Except Failure α → σ → Progress σ β}
    (hwaits : ∀ m g s n t, T m g s (.waits n) t → U (place m) g s (.waits (place n)) t)
    (hends : ∀ m g s r t, T m g s (.ends r) t → Follows U (place m) g s (k r t)) :
    Follows U (place m) g s (p.attempt k) := by
  induction h with
  | done hd => exact hends _ _ _ _ _ hd
  | waits hw _ ih => exact .waits (hwaits _ _ _ _ _ hw) ih

theorem bind (h : Follows T m g s p) (place : M → N) {k : α → σ → Progress σ β}
    (hwaits : ∀ m g s n t, T m g s (.waits n) t → U (place m) g s (.waits (place n)) t)
    (herror : ∀ m g s e t, T m g s (.ends (.error e)) t →
      U (place m) g s (.ends (.error e)) t)
    (hok : ∀ m g s a t, T m g s (.ends (.ok a)) t → Follows U (place m) g s (k a t)) :
    Follows U (place m) g s (p.bind k) := by
  induction h with
  | @done m g s t r hd =>
    cases r with
    | ok a => exact hok m g s a t hd
    | error e => exact .done (herror m g s e t hd)
  | waits hw _ ih => exact .waits (hwaits _ _ _ _ _ hw) ih

/-- The same turns seen from a larger state. -/
theorem zoom {get : τ → σ} {set : σ → τ → τ} {V : Rule τ M α}
    (hV : ∀ m g x o t, T m g (get x) o t → V m g x o (set t x)) {x : τ}
    (h : Follows T m g (get x) p) : Follows V m g x (p.zoom get set x) := by
  generalize hs : get x = s at h
  induction h generalizing x with
  | done hd =>
    subst hs
    exact .done (hV _ _ _ _ _ hd)
  | waits hw _ ih =>
    subst hs
    exact .waits (hV _ _ _ _ _ hw) fun g u => ih g (get u) rfl

end Follows

/-! ## The storage -/

namespace Storage

/-- A turn on the storage goes on in any way. Who is to give up does so at once, and only locks
change. -/
inductive Turn {α : Type} : Rule Storage Unit α where
  | goesOn {s t : Storage} {o : Halt Unit α} : Turn () .proceed s o t
  | givesUp (s : Storage) (held : List (Lock × Nat)) (granted : List Lock) :
      Turn () .cancel s (.ends (.error .cancelled)) (s.lined held granted)

end Storage

/-- An activity gives up when it is told to. -/
def Yields {α : Type} (x : Activity Storage α) : Prop :=
  ∀ s, Follows Storage.Turn () .proceed s (x s)

namespace Yields

variable {α β : Type}

theorem ofAction (x : Action Storage α) : Yields (Activity.ofAction x) := fun _ => .done .goesOn

theorem pure (a : α) : Yields (pure a : Activity Storage α) := fun _ => .done .goesOn

theorem bind {x : Activity Storage α} {k : α → Activity Storage β} (hx : Yields x)
    (hk : ∀ a, Yields (k a)) : Yields (x >>= k) := fun s => by
  refine (hx s).bind id ?_ ?_ ?_
  · rintro _ _ _ _ _ ⟨⟩
    exact .goesOn
  · rintro _ _ _ _ _ (_ | _)
    · exact .goesOn
    · exact .givesUp _ _ _
  · rintro _ _ _ a t ⟨⟩
    exact (hk a t).first fun _ _ _ => .goesOn

theorem getThen {k : Storage → Activity Storage α} (hk : ∀ s, Yields (k s)) :
    Yields (get >>= k) := fun s => hk s s

theorem acquire (key : Lock) : Yields (Storage.acquire key) := fun s => by
  cases hline : Storage.waitersOf? s.store.held key with
  | none =>
    rw [Storage.acquire_free hline]
    exact .done .goesOn
  | some n =>
    rw [Storage.acquire_held hline]
    refine .waits (n := ()) .goesOn fun g t => ?_
    cases g with
    | proceed => exact .done .goesOn
    | cancel =>
      refine .done ?_
      unfold Storage.leaveLine
      split
      · exact .givesUp t _ _
      · exact .givesUp t t.store.held t.store.granted

/-- The lock is given back by who gives up while holding it. -/
theorem holding {x : Activity Storage α} (hx : Yields x) (key : Lock) :
    Yields (Storage.holding key x) := (acquire key).bind fun _ s => by
  refine (hx s).attempt id ?_ ?_
  · rintro _ _ _ _ _ ⟨⟩
    exact .goesOn
  · rintro _ _ s r t hturn
    obtain ⟨held, granted, hrelease⟩ := Storage.exec_release_eq key t
    have hrun : (Storage.release key).run.run t = _ := hrelease
    rw [hrun]
    refine .done ?_
    cases hturn with
    | goesOn => exact .goesOn
    | givesUp => exact .givesUp s held granted

theorem readDocument (name : String) : Yields (Storage.readDocument name) :=
  fun _ => .waits (n := ()) .goesOn fun g t => by
    cases g with
    | proceed => exact .done .goesOn
    | cancel => exact .done (.givesUp t t.store.held t.store.granted)

theorem load : Yields Storage.load := by
  refine .getThen fun s => ?_
  split
  · exact .pure _
  · refine .getThen fun s => holding (.getThen fun s => ?_) _
    split
    · exact .pure _
    · exact .getThen fun s => (readDocument _).bind fun _ => .ofAction _

theorem loadValues (chat : String) : Yields (Storage.loadValues chat) := by
  refine .getThen fun s => ?_
  split
  · exact .pure _
  · refine load.bind fun root => .getThen fun s => holding (.getThen fun s => ?_) _
    split
    · exact .pure _
    · exact .getThen fun s => (readDocument _).bind fun _ => .ofAction _

theorem settings : Yields Storage.settings := load.bind fun r => .pure r.settings

theorem getValue (id chat : String) : Yields (Storage.getValue id chat) :=
  (loadValues chat).bind fun _ => .pure _

theorem editValue (id chat : String) (v : Value) : Yields (Storage.editValue id chat v) := by
  refine (ofAction _).bind fun _ => ?_
  refine (ofAction _).bind fun _ => (loadValues chat).bind fun vs => ?_
  exact (ofAction _).bind fun _ => (ofAction _).bind fun _ => .ofAction _

theorem definition (id : String) : Yields (Variables.find? id) :=
  (load.bind fun _ => .pure _).bind fun _ => .pure _

theorem findByTag (tag : String) : Yields (Variables.findByTag? tag) :=
  (load.bind fun _ => .pure _).bind fun _ => .pure _

theorem definitionsOf (ids : List String) : Yields (Session.definitionsOf ids) := by
  induction ids with
  | nil => exact .pure _
  | cons id ids ih => exact (definition id).bind fun _ => ih.bind fun _ => .pure _

theorem addEntry (id chat content floors : String) :
    Yields (Variables.addEntry id chat content floors) := by
  refine Yields.bind ((getValue id chat).bind fun v => ?_) fun s => ?_
  · split <;> exact .pure _
  · exact (ofAction _).bind fun _ => (editValue id chat _).bind fun _ => .pure _

theorem put (id chat content floors : String) :
    Yields (Variables.put id chat content floors) := by
  refine Yields.bind ((getValue id chat).bind fun v => ?_) fun s => ?_
  · split <;> exact .pure _
  · exact (ofAction _).bind fun _ => (editValue id chat _).bind fun _ => .pure _

theorem warm (chat : String) : Yields (Variables.warm chat) :=
  load.bind fun _ => (loadValues chat).bind fun _ => .pure _

theorem suite (id : String) : Yields (Suites.find? id) :=
  (load.bind fun _ => .pure _).bind fun _ => .pure _

theorem visibleItems (id : String) : Yields (Suites.visibleItems id) :=
  (suite id).bind fun _ => .pure _

theorem enabledVariables (id : String) : Yields (Suites.enabledVariables id) :=
  (suite id).bind fun _ => .pure _

theorem assignOne (chat floors : String) (r : Tagged) :
    Yields (Session.assignOne chat floors r) := by
  refine (findByTag r.tag).bind fun d => ?_
  split
  · exact .pure _
  · split
    · exact (addEntry _ chat r.content floors).bind fun _ => .pure _
    · exact (put _ chat r.content floors).bind fun _ => .pure _

end Yields

/-! ## Sessions -/

namespace Session

/-- The session with other locks. -/
def lined (x : Session) (held : List (Lock × Nat)) (granted : List Lock) : Session :=
  { x with storage := x.storage.lined held granted }

/-- A turn of what leaves the queue alone, and does not say whether an analysis is under way. What
it ends with is as `Q` says. -/
inductive Turn {α : Type} (Q : α → Prop) : Rule Session Unit α where
  | goesOn {x y : Session} {o : Halt Unit α} (hqueue : y.queue = x.queue)
      (hbusy : y.analyzer.busy = x.analyzer.busy) (hQ : ∀ a, o = .ends (.ok a) → Q a) :
      Turn Q () .proceed x o y
  | givesUp (x : Session) (held : List (Lock × Nat)) (granted : List Lock) :
      Turn Q () .cancel x (.ends (.error .cancelled)) (x.lined held granted)

end Session

/-- An activity minds nothing but the storage, the model and what the analyzer remembers, and gives
up when it is told to. -/
def Abides {α : Type} (Q : α → Prop) (x : Activity Session α) : Prop :=
  ∀ s, Follows (Session.Turn Q) () .proceed s (x s)

namespace Abides

open Session

variable {α β : Type} {Q : α → Prop} {R : β → Prop}

/-- What ends at once. -/
theorem now {x : Activity Session α} (h : ∀ s, ∃ t r, x s = .done t r ∧ t.queue = s.queue ∧
    t.analyzer.busy = s.analyzer.busy ∧ ∀ a, r = .ok a → Q a) : Abides Q x := fun s => by
  obtain ⟨t, r, hrun, hqueue, hbusy, hQ⟩ := h s
  rw [hrun]
  refine .done (.goesOn hqueue hbusy fun a ha => hQ a ?_)
  cases ha
  rfl

theorem pure {a : α} (h : Q a) : Abides Q (pure a : Activity Session α) :=
  now fun s => ⟨s, .ok a, rfl, rfl, rfl, fun _ hb => by cases hb; exact h⟩

theorem fail (e : Failure) : Abides Q (Activity.fail e : Activity Session α) :=
  now fun s => ⟨s, .error e, rfl, rfl, rfl, nofun⟩

theorem ofExcept {ε : Type} (f : ε → Failure) (r : Except ε α) :
    Abides (fun _ => True) (Activity.ofExcept f r : Activity Session α) := by
  cases r with
  | ok a => exact .pure trivial
  | error e => exact .fail _

/-- A change of the session that leaves the queue alone, and whether an analysis is under way. -/
theorem onSession {f : Session → Session}
    (h : ∀ s, (f s).queue = s.queue ∧ (f s).analyzer.busy = s.analyzer.busy) :
    Abides (fun _ => True) (modify f : Activity Session Unit) :=
  now fun s => ⟨f s, .ok (), rfl, (h s).1, (h s).2, fun _ _ => trivial⟩

theorem bind {x : Activity Session α} {k : α → Activity Session β} (hx : Abides Q x)
    (hk : ∀ a, Q a → Abides R (k a)) : Abides R (x >>= k) := fun s => by
  refine (hx s).bind id ?_ ?_ ?_
  · rintro _ _ _ _ _ (⟨hqueue, hbusy, _⟩ | _)
    exact .goesOn hqueue hbusy nofun
  · rintro _ _ _ _ _ (⟨hqueue, hbusy, _⟩ | ⟨_, held, granted⟩)
    · exact .goesOn hqueue hbusy nofun
    · exact .givesUp _ held granted
  · rintro _ _ s a t (⟨hqueue, hbusy, hQ⟩ | _)
    refine (hk a (hQ a rfl) t).first fun o u hturn => ?_
    cases hturn with
    | goesOn hqueue' hbusy' hR => exact .goesOn (hqueue'.trans hqueue) (hbusy'.trans hbusy) hR

theorem getThen {k : Session → Activity Session β} (hk : ∀ s, Abides R (k s)) :
    Abides R (get >>= k) := fun s => hk s s

theorem ite {c : Prop} [Decidable c] {x y : Activity Session α} (hx : Abides Q x)
    (hy : Abides Q y) : Abides Q (if c then x else y) := by
  split
  · exact hx
  · exact hy

theorem stored {x : Activity Storage α} (hx : Yields x) :
    Abides (fun _ => True) (stored x) := fun s => by
  refine Follows.zoom (T := Storage.Turn) (fun _ _ y _ t hturn => ?_) (hx s.storage)
  cases hturn with
  | goesOn => exact .goesOn rfl rfl fun _ _ => trivial
  | givesUp => exact .givesUp y _ _

/-- Who is to give up is not kept from it by catching faults of the model. -/
theorem caught {x : Activity Session α} (hx : Abides (fun _ => True) x) :
    Abides (fun _ => True) (caught x) := fun s => by
  have hmapped : Abides (fun _ => True) (Except.ok (ε := CompletionFault) <$> x) :=
    hx.bind fun a _ => .pure trivial
  refine (hmapped s).attempt id ?_ ?_
  · rintro _ _ _ _ _ (⟨hqueue, hbusy, _⟩ | _)
    exact .goesOn hqueue hbusy nofun
  · rintro _ _ s r t (⟨hqueue, hbusy, _⟩ | ⟨_, held, granted⟩)
    · have hsame {o : Halt Unit (Except CompletionFault α)} :
          Turn (fun _ => True) () .proceed s o t := .goesOn hqueue hbusy fun _ _ => trivial
      rcases r with e | a
      · cases e <;> exact .done hsame
      · exact .done hsame
    · exact .done (.givesUp s held granted)

/-! ### Analyses -/

theorem resolve (chat : String) (messages : List Message) (template : String) :
    Abides (fun _ => True) (resolve chat messages template) :=
  .getThen fun _ => ofExcept _ _

theorem itemText (c : Chat) (i : Item) : Abides (fun _ => True) (itemText c i) := by
  unfold Session.itemText
  cases i with
  | prompt p => exact (resolve c.id c.messages p.content).bind fun _ _ => .pure trivial
  | chat item =>
    exact .getThen fun s => (ofExcept _ _).bind fun _ _ => .pure trivial
  | character item => exact .ite (.pure trivial) (.getThen fun s => .pure trivial)
  | _ => exact .pure trivial

theorem itemTexts (c : Chat) (items : List Item) :
    Abides (fun _ => True) (itemTexts c items) := by
  induction items with
  | nil => exact .pure trivial
  | cons i items ih => exact (itemText c i).bind fun _ _ => ih.bind fun _ _ => .pure trivial

theorem prompt (suiteId : String) (c : Chat) :
    Abides (fun _ => True) (prompt suiteId c) :=
  (stored (.visibleItems suiteId)).bind fun items _ => (itemTexts c items).bind fun _ _ =>
    .pure trivial

theorem enabledDefinitions (suiteId : String) :
    Abides (fun _ => True) (enabledDefinitions suiteId) :=
  stored ((Yields.enabledVariables suiteId).bind fun ids => .definitionsOf ids)

/-- The model may have to be waited for. -/
theorem gated {p : Prop} [Decidable p] {act : Activity Session α}
    (h : Abides Q act) :
    Abides Q (if p then Activity.pause .gate >>= fun _ => act else act) := by
  have hgate : Abides (fun _ => True) (.pause .gate : Activity Session Unit) := fun s => by
    refine .waits (n := ()) (.goesOn rfl rfl nofun) fun g t => ?_
    cases g with
    | proceed => exact .done (.goesOn rfl rfl fun _ _ => trivial)
    | cancel => exact .done (.givesUp t t.storage.store.held t.storage.store.granted)
  split
  · exact hgate.bind fun _ _ => h
  · exact h

theorem askRehearsal (text : String) : Abides (fun _ => True) (askRehearsal text) := by
  refine Abides.bind (x := modify _) (onSession fun s => ⟨rfl, rfl⟩) fun _ _ => .getThen fun s => ?_
  refine gated ?_
  exact Abides.bind (x := modifyGet _) (now fun s => ⟨{ s with model := s.model.reply.2 }, .ok _,
    rfl, rfl, rfl, fun _ _ => trivial⟩) fun _ _ => .pure trivial

theorem askEndpoint (client : Completion.Client) (text : String) :
    Abides (fun _ => True) (askEndpoint client text) := by
  refine Abides.bind (x := modifyGet _) (now fun s => ⟨{ s with
    line := (s.line.ask client (Completion.promptMessages none text) .none).2 }, .ok _, rfl, rfl, rfl,
      fun _ _ => trivial⟩) fun reply _ => ?_
  split <;> exact .pure (Q := fun _ => True) trivial

theorem otherEndpoint : Abides (fun _ => True) otherEndpoint? := by
  refine .getThen fun s => ?_
  split
  · exact .pure trivial
  · exact (stored .settings).bind fun settings _ => .pure trivial

/-- What was answered is given after the call was noted. -/
theorem told (reply : Except Failure String) {note : String → Activity Session Unit}
    {noteFault : CompletionFault → Activity Session Unit}
    (hnote : ∀ t, Abides (fun _ => True) (note t))
    (hfault : ∀ fault, Abides (fun _ => True) (noteFault fault)) :
    Abides (fun _ => True) (match reply with
      | .ok t => do
        note t
        return t
      | .error (.completion fault) => do
        noteFault fault
        throw (.completion fault)
      | .error e => throw e) := by
  rcases reply with e | t
  · cases e with
    | completion fault => exact (hfault fault).bind fun _ _ => .fail _
    | _ => exact .fail _
  · exact (hnote t).bind fun _ _ => .pure trivial

theorem ask (suite : Suite) (chat floors text : String) :
    Abides (fun _ => True) (ask suite chat floors text) := by
  refine otherEndpoint.bind fun client _ => ?_
  cases client with
  | some client =>
    refine (askEndpoint client text).bind fun answered _ => ?_
    exact told answered.reply (fun _ => onSession fun _ => ⟨rfl, rfl⟩)
      fun _ => onSession fun _ => ⟨rfl, rfl⟩
  | none =>
    refine (askRehearsal text).bind fun answered _ => ?_
    exact told answered.reply (fun _ => onSession fun _ => ⟨rfl, rfl⟩)
      fun _ => onSession fun _ => ⟨rfl, rfl⟩

/-- An analysis that is under way does not say that another one is. -/
theorem analyzeNow (suiteId : String) (c : Chat) :
    Abides (· ≠ .failed .busy "") (analyzeNow suiteId c) := by
  refine (stored (.suite suiteId)).bind fun found _ => ?_
  split
  · exact .pure nofun
  refine (stored (.warm c.id)).bind fun _ _ => (prompt _ c).bind fun p _ => ?_
  refine .ite (.pure nofun) ?_
  refine Abides.bind (x := Activity.ofAction _) (onSession fun s => ⟨rfl, rfl⟩) fun _ _ => ?_
  refine (enabledDefinitions suiteId).bind fun ds _ => .ite (.pure nofun) ?_
  refine (caught (ask _ c.id p.2 _)).bind fun reply _ => ?_
  split
  · exact .pure nofun
  · exact Abides.bind (x := Activity.ofAction _) (onSession fun s => ⟨rfl, rfl⟩) fun _ _ => .pure nofun

theorem assign (chat floors : String) (rs : List Tagged) :
    Abides (fun _ => True) (assign chat floors rs) := by
  induction rs with
  | nil => exact .pure trivial
  | cons r rs ih =>
    exact (stored (.assignOne chat floors r)).bind fun _ _ => ih.bind fun _ _ => .pure trivial

end Abides

/-! ## Analyses -/

/-- Where an analysis waits. -/
inductive Stage where
  /-- It was called, and has not looked whether another one is under way. -/
  | called
  /-- It has the analyzer. -/
  | holding
  /-- It gave the analyzer back and stores what was read. -/
  | storing

/-- Whether the analyzer is kept. -/
def Halt.holds {α : Type} : Halt Stage α → Bool
  | .waits .holding => true
  | _ => false

/-- The session as an analysis leaves it that gives up. -/
def Session.freed (x : Session) : Stage → Session
  | .holding => { x with analyzer := { x.analyzer with busy := false } }
  | _ => x

/-- Whoever has begun does not begin again, and is not rejected. -/
def Halt.Begun (o : Halt Stage AnalysisResult) : Prop :=
  o ≠ .waits .called ∧ o ≠ .ends (.ok (.failed .busy ""))

/-- What a turn of an analysis may do. -/
inductive AnalysisTurn : Rule Session Stage AnalysisResult where
  /-- Another analysis is under way. -/
  | rejected {x : Session} (hbusy : x.analyzer.busy = true) :
      AnalysisTurn .called .proceed x (.ends (.ok (.failed .busy ""))) x
  | begins {x y : Session} {o : Halt Stage AnalysisResult} (hidle : x.analyzer.busy = false)
      (ho : o.Begun) (hqueue : y.queue = x.queue) (hbusy : y.analyzer.busy = o.holds) :
      AnalysisTurn .called .proceed x o y
  | goesOn {x y : Session} {o : Halt Stage AnalysisResult} (ho : o.Begun)
      (hqueue : y.queue = x.queue) (hbusy : y.analyzer.busy = (o.holds && x.analyzer.busy)) :
      AnalysisTurn .holding .proceed x o y
  | stores {x y : Session} {o : Halt Stage AnalysisResult} (ho : o.Begun) (hfree : o.holds = false)
      (hqueue : y.queue = x.queue) (hbusy : y.analyzer.busy = x.analyzer.busy) :
      AnalysisTurn .storing .proceed x o y
  | givesUp (m : Stage) (x : Session) (held : List (Lock × Nat)) (granted : List Lock) :
      AnalysisTurn m .cancel x (.ends (.error .cancelled)) ((x.freed m).lined held granted)

namespace Session

/-- What leaves the queue and the analyzer alone may be done after the analyzer was given back. -/
theorem follows_storing {x : Activity Session AnalysisResult}
    (hx : Abides (· ≠ .failed .busy "") x) (s : Session) :
    Follows AnalysisTurn .storing .proceed s (x s) := by
  refine (hx s).relabel (fun _ => Stage.storing) ?_ ?_
  · rintro _ _ _ _ _ (⟨hqueue, hbusy, _⟩ | _)
    exact .stores ⟨nofun, nofun⟩ rfl hqueue hbusy
  · rintro _ _ _ r _ (⟨hqueue, hbusy, hQ⟩ | ⟨_, held, granted⟩)
    · refine .stores ⟨nofun, fun h => ?_⟩ rfl hqueue hbusy
      exact hQ _ (congrArg Halt.ends (Halt.ends.inj h)) rfl
    · exact .givesUp .storing _ held granted

theorem follows_analyze (suiteId : String) (c : Chat) (s : Session) :
    Follows AnalysisTurn .called .proceed s (analyze suiteId c s) := by
  cases hbusy : s.analyzer.busy with
  | true =>
    have hrun : analyze suiteId c s = .done s (.ok (.failed .busy "")) := by
      unfold analyze
      rw [get_bind, if_pos hbusy]
      rfl
    rw [hrun]
    exact .done (.rejected hbusy)
  | false =>
    let begun : Session := { s with analyzer := { s.analyzer with busy := true } }
    have hrun : analyze suiteId c s = (analyzeNow suiteId c).ensuring
        (onAnalyzer fun a => { a with busy := false }) begun := by
      unfold analyze
      rw [get_bind, if_neg (by rw [hbusy]; decide)]
      rfl
    rw [hrun]
    have hnow : Follows AnalysisTurn .holding .proceed begun ((analyzeNow suiteId c).ensuring
        (onAnalyzer fun a => { a with busy := false }) begun) := by
      refine (Abides.analyzeNow suiteId c begun).attempt (fun _ => Stage.holding) ?_ ?_
      · rintro _ _ _ _ _ (⟨hqueue, hsame, _⟩ | _)
        exact .goesOn ⟨nofun, nofun⟩ hqueue hsame
      · rintro _ _ x r y (⟨hqueue, -, hQ⟩ | ⟨_, held, granted⟩)
        · refine .done (.goesOn ⟨nofun, fun h => ?_⟩ hqueue rfl)
          exact hQ _ (congrArg Halt.ends (Halt.ends.inj h)) rfl
        · exact .done (.givesUp .holding x held granted)
    refine hnow.first fun o t hturn => ?_
    cases hturn with
    | goesOn ho hqueue hsame => exact .begins hbusy ho hqueue (hsame.trans (Bool.and_true _))

/-- After an analysis ended well, what follows is a part of the turn that is under way. -/
theorem follows_ended {m : Stage} {g : Signal} {s t : Session} {r : AnalysisResult}
    {p : Progress Session AnalysisResult} (hr : r ≠ .failed .busy "")
    (hturn : AnalysisTurn m g s (.ends (.ok r)) t) (h : Follows AnalysisTurn .storing .proceed t p) :
    Follows AnalysisTurn m g s p := by
  refine h.first fun o u hstores => ?_
  cases hstores with
  | stores ho hfree hqueue hbusy =>
    cases hturn with
    | rejected => exact absurd rfl hr
    | begins hidle _ hqueue' hbusy' =>
      exact .begins hidle ho (hqueue.trans hqueue') (hbusy.trans (hbusy'.trans hfree.symm))
    | goesOn _ hqueue' hbusy' =>
      refine .goesOn ho (hqueue.trans hqueue') (hbusy.trans (hbusy'.trans ?_))
      rw [hfree]
      rfl
    | stores _ _ hqueue' hbusy' =>
      exact .stores ho hfree (hqueue.trans hqueue') (hbusy.trans hbusy')

theorem follows_run (suiteId : String) (c : Chat) (s : Session) :
    Follows AnalysisTurn .called .proceed s (run suiteId c s) := by
  refine (follows_analyze suiteId c s).bind id (fun _ _ _ _ _ h => h) (fun _ _ _ _ _ h => h) ?_
  intro m g s r t hturn
  by_cases hr : r = .failed .busy ""
  · subst hr
    exact .done hturn
  · refine follows_ended hr hturn (follows_storing ?_ t)
    split
    · exact .pure hr
    · next hgood =>
      refine (Abides.assign c.id _ r.results).bind fun n _ => .pure fun h => ?_
      have hfault : r.fault = some .busy := congrArg AnalysisResult.fault h
      have hfailed : r.succeeded = false := by
        unfold AnalysisResult.succeeded
        rw [hfault]
        rfl
      rw [hfailed] at hgood
      exact hgood rfl

end Session

/-! ## Tasks -/

/-- Who is asked for a chat leaves the queue alone, and does not say whether an analysis is under
way. -/
def Session.Fetch.Polite (fetch : Session.Fetch) : Prop :=
  ∀ chat s, Follows (M := Unit) (fun _ _ x _ y => y.queue = x.queue ∧
    y.analyzer.busy = x.analyzer.busy) () .proceed s (fetch chat s)

theorem Session.polite_hostFetch : Session.Fetch.Polite Session.hostFetch :=
  fun _ _ => .done ⟨rfl, rfl⟩

/-- What a turn of a worker may do with a task: at first it waits for the chat, and then for the
analysis. -/
inductive ErrandTurn (w : Nat) : Rule Session (Option Stage) AnalysisResult where
  | fetches {g : Signal} {x y : Session} (hqueue : y.queue = x.queue)
      (hbusy : y.analyzer.busy = x.analyzer.busy) : ErrandTurn w none g x (.waits none) y
  | misses {g : Signal} {x y : Session} {e : Failure} (hqueue : y.queue = x.queue)
      (hbusy : y.analyzer.busy = x.analyzer.busy) : ErrandTurn w none g x (.ends (.error e)) y
  | launches {g : Signal} {x y : Session} (hqueue : y.queue = x.queue.launch w)
      (hbusy : y.analyzer.busy = x.analyzer.busy) :
      ErrandTurn w none g x (.waits (some .called)) y
  | waits {m n : Stage} {g : Signal} {x y : Session} (h : AnalysisTurn m g x (.waits n) y) :
      ErrandTurn w (some m) g x (.waits (some n)) y
  | fails {m : Stage} {g : Signal} {x y : Session} {e : Failure}
      (h : AnalysisTurn m g x (.ends (.error e)) y) :
      ErrandTurn w (some m) g x (.ends (.error e)) y
  | ends {m : Stage} {g : Signal} {x y : Session} {r : AnalysisResult}
      (h : AnalysisTurn m g x (.ends (.ok r)) y) :
      ErrandTurn w (some m) g x (.ends (.ok r)) { y with queue := y.queue.note r }

namespace Session

/-- What comes of the chat of a task. -/
theorem follows_chatFrom {fetch : Fetch} (hfetch : fetch.Polite) (t : Task) (s : Session) :
    Follows (M := Unit) (fun _ _ x _ y => y.queue = x.queue ∧
      y.analyzer.busy = x.analyzer.busy) () .proceed s (chatFrom fetch t s) := by
  have hpure (a : Option Chat) (s : Session) : Follows (M := Unit) (fun _ _ x _ y =>
      y.queue = x.queue ∧ y.analyzer.busy = x.analyzer.busy) () .proceed s
      ((pure a : Activity Session (Option Chat)) s) := .done ⟨rfl, rfl⟩
  unfold chatFrom
  rw [get_bind]
  split
  · exact (hpure none s).bind id (fun _ _ _ _ _ h => h) (fun _ _ _ _ _ h => h)
      fun _ _ _ _ _ h => .done h
  · exact (hfetch t.chatId s).bind id (fun _ _ _ _ _ h => h) (fun _ _ _ _ _ h => h)
      fun _ _ _ _ _ h => .done h

theorem follows_runOn (w : Nat) (t : Task) (c : Chat) (s : Session) :
    Follows (ErrandTurn w) (some .called) .proceed s (runOn t c s) :=
  (follows_run t.suiteId c s).bind some (fun _ _ _ _ _ h => .waits h)
    (fun _ _ _ _ _ h => .fails h) fun _ _ _ _ _ h => .done (.ends h)

theorem follows_runTask {fetch : Fetch} (hfetch : fetch.Polite) (w : Nat) (t : Task)
    (s : Session) : Follows (ErrandTurn w) none .proceed s (runTask fetch w t s) := by
  refine (follows_chatFrom hfetch t s).bind (fun _ => none) (fun _ _ _ _ _ h => .fetches h.1 h.2)
    (fun _ _ _ _ _ h => .misses h.1 h.2) ?_
  rintro _ g s c u ⟨hqueue, hbusy⟩
  have hlaunches : ErrandTurn w none g s (.waits (some .called))
      { u with queue := u.queue.launch w } := .launches (congrArg (Queue.launch · w) hqueue) hbusy
  refine .waits hlaunches fun g x => ?_
  cases g with
  | cancel => exact .done (.fails (.givesUp .called x x.storage.store.held x.storage.store.granted))
  | proceed => exact follows_runOn w t c x

end Session

end TagLedger
