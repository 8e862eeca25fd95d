import TagLedger.Proofs.Courses
import TagLedger.Proofs.Reading

/-!
# Sharing a storage

Activities of several callers share a storage. What each of them keeps wherever it waits or ends
holds at every moment, and also when one of them is answered in the end.

    every operation that may be asked for keeps P  →  P holds ever after        (Kept.continues)
    x gives Q while it keeps P  →  what x answers in the end is as Q says       (Kept.ends)
-/

namespace TagLedger

namespace Course

/-! ## Moves -/

/-- What happens to a storage until everything is forgotten. What may be asked for is up to
`may`. -/
inductive Moves (may : Storage → Operation → Prop) (c : Course) : Course → Prop where
  /-- Somebody asks for an operation. -/
  | ask (op : Operation) (h : may c.storage op) :
      Moves may c (after c.pending (op.perform c.storage))
  /-- An activity goes on, or is cancelled while it waits. -/
  | goOn {before later : List Pending} {p : Pending} {g : Signal} {s : Storage}
      (hp : c.pending = before ++ p :: later) (hs : wake p.wait g c.storage = some s) :
      Moves may c (after (before ++ later) (p.resume g s))
  /-- Time passes, and timers run out. -/
  | elapse (time : Nat) : Moves may c ⟨(exec (Storage.elapse time) c.storage).2, c.pending⟩
  /-- The clock is set. -/
  | clock (clock : Clock) : Moves may c ⟨{ c.storage with clock := clock }, c.pending⟩
  /-- The documents change without the store, and so does what is refused. -/
  | outside (documents : List (String × String)) (refuses : Access → Bool) :
      Moves may c ⟨{ c.storage with shelf := { c.storage.shelf with
        documents := documents, refuses := refuses } }, c.pending⟩

/-- What comes of a storage move by move. -/
inductive Continues (may : Storage → Operation → Prop) (c : Course) : Course → Prop where
  | refl : Continues may c c
  | move {d e : Course} : Continues may c d → Moves may d e → Continues may c e

/-- A new store on any shelf, and what comes of it. -/
inductive Reachable : Course → Prop where
  | new (rootName valuesStart : String) (debounce epoch : Nat) (shelf : Shelf) (clock : Clock)
      (random : Identifier.Random) :
      Reachable ⟨⟨.empty rootName valuesStart debounce epoch, shelf, clock, random⟩, []⟩
  | move {c d : Course} : Reachable c → Moves (fun _ _ => True) c d → Reachable d
  /-- Everything is forgotten. -/
  | forget {c : Course} : Reachable c →
      Reachable ⟨{ c.storage with store := c.storage.store.forget }, c.pending⟩

variable {α : Type} {may : Storage → Operation → Prop}

/-- What an activity answers in the end that came so far, and the course at that moment. While it
waits, others go on. -/
inductive Ends (may : Storage → Operation → Prop) :
    List Pending → Progress Storage α → Except Failure α → Course → Prop where
  | done {ps : List Pending} {s : Storage} {r : Except Failure α} :
      Ends may ps (.done s r) r ⟨s, ps⟩
  | waits {ps : List Pending} {s t : Storage} {w : Wait} {g : Signal} {c d : Course}
      {resume : Signal → Storage → Progress Storage α} {r : Except Failure α} :
      Continues may ⟨s, ps⟩ c → wake w g c.storage = some t → Ends may c.pending (resume g t) r d →
        Ends may ps (.waiting s w resume) r d

/-- What an operation answers in the end that is asked for now. -/
def Answers (may : Storage → Operation → Prop) (c : Course) (x : Activity Storage α)
    (r : Except Failure α) (d : Course) : Prop := Ends may c.pending (x c.storage) r d

/-! ## What is kept -/

/-- Who waits goes on well from every storage that is as `P` says. -/
def Goes (P : Storage → Prop) (p : Pending) : Prop :=
  ∀ g s t, P s → wake p.wait g s = some t →
    Rests (Always P) (fun _ _ => True) none (p.resume g t)

/-- The storage is as `P` says, and those who wait see to it. -/
structure Kept (P : Storage → Prop) (c : Course) : Prop where
  storage : P c.storage
  pending : ∀ p ∈ c.pending, Goes P p

/-- What time, the clock and changes from outside keep. -/
structure Lasting (P : Storage → Prop) : Prop where
  elapse : ∀ time, KeepsNow (Always P) (Storage.elapse time)
  clock : ∀ s clock, P s → P { s with clock := clock }
  outside : ∀ s documents refuses, P s → P { s with shelf := { s.shelf with
    documents := documents, refuses := refuses } }

/-- Every operation that may be asked for keeps `P`. -/
def Sees (may : Storage → Operation → Prop) (P : Storage → Prop) : Prop :=
  ∀ s op, may s op → P s → Rests (Always P) (fun _ _ => True) none (op.perform s)

variable {P : Storage → Prop} {c d : Course}

theorem kept_after {ps : List Pending} {p : Progress Storage Unit}
    (hp : Rests (Always P) (fun _ _ => True) none p) (hps : ∀ q ∈ ps, Goes P q) :
    Kept P (after ps p) := by
  cases hp with
  | done hs _ => exact ⟨hs, hps⟩
  | waits hs hr => exact ⟨hs, List.forall_mem_cons.mpr ⟨fun g s t => hr g none s t, hps⟩⟩
  | @holds k => exact k.elim

theorem Kept.moves (hlasting : Lasting P) (hsees : Sees may P) (h : Kept P c)
    (hmove : Moves may c d) : Kept P d := by
  obtain ⟨hs, hps⟩ := h
  cases hmove with
  | ask op hmay => exact kept_after (hsees _ op hmay hs) hps
  | @goOn before later p g t hp hw =>
    rw [hp] at hps
    refine kept_after (hps p (List.mem_append_right _ List.mem_cons_self) g _ t hs hw) ?_
    intro q hq
    refine hps q ((List.mem_append.mp hq).elim (List.mem_append_left _) fun hq => ?_)
    exact List.mem_append_right _ (List.mem_cons_of_mem p hq)
  | elapse time => exact ⟨hlasting.elapse time none _ hs, hps⟩
  | clock clock => exact ⟨hlasting.clock _ clock hs, hps⟩
  | outside documents refuses => exact ⟨hlasting.outside _ documents refuses hs, hps⟩

theorem Kept.continues (hlasting : Lasting P) (hsees : Sees may P) (h : Kept P c)
    (hc : Continues may c d) : Kept P d := by
  induction hc with
  | refl => exact h
  | move _ hmove ih => exact ih.moves hlasting hsees hmove

/-- Whatever others do meanwhile, an activity that keeps `P` is answered as it should be. -/
theorem Kept.ends {Q : α → Storage → Prop} (hlasting : Lasting P) (hsees : Sees may P)
    {ps : List Pending} {p : Progress Storage α} {r : Except Failure α} (hends : Ends may ps p r d)
    (hp : Rests (Always P) Q none p) (hps : ∀ q ∈ ps, Goes P q) :
    Kept P d ∧ ∀ a, r = .ok a → Q a d.storage := by
  induction hends with
  | done =>
    cases hp with
    | done hs hq => exact ⟨⟨hs, hps⟩, hq⟩
  | waits hc hw _ ih =>
    cases hp with
    | waits hs hr =>
      have hkept := Kept.continues hlasting hsees ⟨hs, hps⟩ hc
      exact ih (hr _ none _ _ hkept.storage hw) hkept.pending
    | @holds k => exact k.elim

theorem Kept.answers {Q : α → Storage → Prop} (hlasting : Lasting P) (hsees : Sees may P)
    (h : Kept P c) {x : Activity Storage α} (hx : Gives (Always P) Q x) {r : Except Failure α}
    (hr : Answers may c x r d) : Kept P d ∧ ∀ a, r = .ok a → Q a d.storage :=
  Kept.ends hlasting hsees hr (hx none _ h.storage) h.pending

/-- What every operation keeps holds of all that comes of a new store. -/
theorem Reachable.kept (h : Reachable c) (hlasting : Lasting P)
    (hpieces : Pieces (.ofChats fun _ => True) (Always P))
    (hnew : ∀ rootName valuesStart debounce epoch shelf clock random,
      P ⟨.empty rootName valuesStart debounce epoch, shelf, clock, random⟩)
    (hforget : ∀ s, P s → P { s with store := s.store.forget }) : Kept P c := by
  induction h with
  | new => exact ⟨hnew _ _ _ _ _ _ _, nofun⟩
  | move _ hmove ih =>
    refine ih.moves hlasting (fun s op _ hs => ?_) hmove
    exact hpieces.perform op (Operation.within_chats fun _ _ => trivial) none s hs
  | forget _ ih => exact ⟨hforget _ ih.storage, ih.pending⟩

/-! ## One entry for each chat -/

/-- Each chat stands once in memory. -/
def Distinct (s : Storage) : Prop := (Json.keys s.store.values).Nodup

namespace Distinct

theorem writing : KeepsWriting (Always Distinct) := by
  refine .ofAttempts (fun _ _ _ _ _ _ _ h => h) (fun _ s r h _ _ _ => ?_) fun _ s c vs h _ _ _ => ?_
  · unfold Storage.attemptRoot
    dsimp only
    split <;> exact h
  · unfold Storage.attemptChat Store.markDirty
    dsimp only
    split <;> split <;> exact h

theorem setValues {s : Storage} (h : Distinct s) (chat : String) (vs : ChatValues) :
    Distinct { s with store := s.store.setValues chat vs } := Json.nodup_keys_insert h chat vs

theorem taken {s : Storage} (h : Distinct s) (r : Root) (chat : String)
    (answer : Except StorageFault (Option String)) : Distinct (s.taken r chat answer).2 := by
  unfold Storage.taken
  split
  · change (Json.keys (if (s.store.cached? chat).isSome then s.store.values
      else s.store.values ++ [(chat, [])])).Nodup
    split
    · exact h
    · next hnone =>
      rw [← Json.insert_of_not_mem]
      · exact Json.nodup_keys_insert h chat []
      · exact fun hmem => hnone (Json.find?_isSome.mpr hmem)
  · dsimp only
    split <;> exact Json.nodup_keys_insert h chat _

theorem takeRoot (answer : Except StorageFault (Option String)) :
    KeepsNow (Always Distinct) (Storage.takeRoot answer) := fun _ s h => by
  have hleft := @Storage.takeRoot_leaves Distinct s answer writing (fun _ _ _ _ => h)
    (fun _ _ _ _ _ _ => .adopt fun c _ _ _ ht => setValues ht c.1 c.2) fun _ ht => ht
  rcases hleft with hsame | hdistinct
  · rw [hsame]
    exact h
  · exact hdistinct

theorem load : Keeps (Always Distinct) Storage.load :=
  .load (fun _ _ _ _ h => h) fun _ _ f _ _ h => takeRoot _ f _ h

theorem loadValues (chat : String) : Keeps (Always Distinct) (Storage.loadValues chat) :=
  Gives.loadValues (fun _ _ _ _ h => h) (fun _ _ _ _ _ => trivial) load
    (fun _ _ _ _ _ => trivial) fun _ s₀ _ s _ _ h =>
      ⟨taken (s := { s with shelf := (s.shelf.read
        (Store.valuesName s₀.store.valuesStart chat)).2 }) h _ chat _, trivial⟩

theorem pieces : Pieces (.ofChats fun _ => True) (Always Distinct) where
  newId _ _ _ _ h := h
  load := load
  changeRoot _ _ := load.bind fun _ => (Keeps.ofAction (x := Storage.onStore _) fun _ _ h => h).bind
    fun _ => .ofAction (x := Storage.saveSoon) fun _ _ h => h
  save := writing.save
  saveSoon _ _ _ h := h
  removeValues _ _ := .removeValues (fun _ _ _ _ h => h) (fun _ _ _ _ _ h => setValues h _ _)
    fun _ _ _ h => h
  loadValues _ := loadValues _
  amend _ _ := .amend fun _ _ _ h _ => setValues h _ _
  setValue _ _ _ := .setValue (loadValues _) (fun _ _ _ h _ => setValues h _ _) fun _ _ h => h
  saveValues _ := writing.saveValues _ trivial
  saveValuesSoon _ _ _ h := h
  flush := writing.flush
  close := writing.close

end Distinct

end Course

end TagLedger
