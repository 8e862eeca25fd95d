import TagLedger.Proofs.Loading

/-!
# Waiting

Activities of several callers share one storage. Each goes on until it has to wait; then the others
may change the storage, and a lock has to be handed over before who waits for it goes on. What all
of them keep is stated once, for the moments at which an activity waits or has ended. Besides, one
activity at a time may count on something while it waits, and holds it until it goes on.

    x keeps I, and so does f a  →  x >>= f keeps I          (Keeps.bind)
-/

namespace TagLedger

/-- What an activity finds that goes on after a wait; a lock has to be there for it. -/
def wake (w : Wait) (g : Signal) (s : Storage) : Option Storage :=
  match w, g with
  | .lock key, .proceed =>
    if key ∈ s.store.granted then
      some { s with store := { s.store with granted := s.store.granted.erase key } }
    else none
  | _, _ => some s

theorem wake_lock {key : Lock} {s t : Storage} (h : wake (.lock key) .proceed s = some t) :
    key ∈ s.store.granted ∧
      t = { s with store := { s.store with granted := s.store.granted.erase key } } := by
  simp only [wake] at h
  split at h
  · next hkey => exact ⟨hkey, (Option.some.inj h).symm⟩
  · contradiction

/-- Whoever waits can be woken up into any state, if the lock was handed over before. -/
theorem exists_wake (w : Wait) (s : Storage) : ∃ granted,
    wake w .proceed { s with store := { s.store with granted := granted } } = some s := by
  cases w with
  | lock key =>
    refine ⟨key :: s.store.granted, ?_⟩
    simp [wake]
  | _ => exact ⟨s.store.granted, rfl⟩

/-! ## Progress -/

variable {α β κ φ : Type}

/-- Wherever an activity that came so far waits or ends, `I` holds, and what it gives is as `Q`
says. The flag tells what another activity counts on; only one may count on something. -/
inductive Rests (I : Option κ → Storage → Prop) (Q : α → Storage → Prop) :
    Option κ → Progress Storage α → Prop where
  | done {f : Option κ} {s : Storage} {r : Except Failure α} :
      I f s → (∀ a, r = .ok a → Q a s) → Rests I Q f (.done s r)
  | waits {f : Option κ} {s : Storage} {w : Wait} {r : Signal → Storage → Progress Storage α} :
      I f s → (∀ g f' s' t, I f' s' → wake w g s' = some t → Rests I Q f' (r g t)) →
        Rests I Q f (.waiting s w r)
  | holds {k : κ} {s : Storage} {w : Wait} {r : Signal → Storage → Progress Storage α} :
      I (some k) s → (∀ g s' t, I (some k) s' → wake w g s' = some t → Rests I Q none (r g t)) →
        Rests I Q none (.waiting s w r)

variable {I : Option κ → Storage → Prop} {Q : α → Storage → Prop} {R : β → Storage → Prop}

namespace Rests

theorem attempt {f : Option κ} {p : Progress Storage α} (h : Rests I Q f p)
    {k : Except Failure α → Storage → Progress Storage β}
    (hk : ∀ f r s, I f s → (∀ a, r = .ok a → Q a s) → Rests I R f (k r s)) :
    Rests I R f (p.attempt k) := by
  induction h with
  | done hI hQ => exact hk _ _ _ hI hQ
  | waits hI _ ih => exact .waits hI fun g f s t hs ht => ih g f s t hs ht
  | holds hI _ ih => exact .holds hI fun g s t hs ht => ih g s t hs ht

theorem bind {f : Option κ} {p : Progress Storage α} (h : Rests I Q f p)
    {k : α → Storage → Progress Storage β}
    (hk : ∀ f a s, I f s → Q a s → Rests I R f (k a s)) : Rests I R f (p.bind k) := by
  induction h with
  | @done f s r hI hQ =>
    cases r with
    | ok a => exact hk f a s hI (hQ a rfl)
    | error e => exact .done hI nofun
  | waits hI _ ih => exact .waits hI fun g f s t hs ht => ih g f s t hs ht
  | holds hI _ ih => exact .holds hI fun g s t hs ht => ih g s t hs ht

theorem mono {f : Option κ} {p : Progress Storage α} {Q' : α → Storage → Prop} (h : Rests I Q f p)
    (hQ : ∀ a s, Q a s → Q' a s) : Rests I Q' f p := by
  induction h with
  | done hI hd => exact .done hI fun a ha => hQ a _ (hd a ha)
  | waits hI _ ih => exact .waits hI fun g f s t hs ht => ih g f s t hs ht
  | holds hI _ ih => exact .holds hI fun g s t hs ht => ih g s t hs ht

end Rests

/-- What is kept while nobody counts on anything. -/
abbrev Always (P : Storage → Prop) : Option Empty → Storage → Prop := fun _ => P

/-- `P` does not speak of locks. -/
def Unlocked (P : Storage → Prop) : Prop := ∀ s held granted, P s →
  P { s with store := { s.store with held := held, granted := granted } }

/-- What is kept at every wait holds in the end if every wait is answered at once. -/
theorem Rests.finish {P : Storage → Prop} (hP : Unlocked P) {f : Option Empty}
    {p : Progress Storage α} (h : Rests (Always P) Q f p) :
    P p.finish.2 ∧ ∀ a, p.finish.1 = .ok a → Q a p.finish.2 := by
  induction h with
  | done hI hQ => exact ⟨hI, hQ⟩
  | @waits f s w r hI _ ih =>
    obtain ⟨granted, hw⟩ := exists_wake w s
    exact ih .proceed f _ s (hP s s.store.held granted hI) hw
  | @holds k => exact k.elim

/-! ## Activities -/

/-- An activity keeps `I` and, if it succeeds, gives what `Q` says. -/
def Gives (I : Option κ → Storage → Prop) (Q : α → Storage → Prop) (x : Activity Storage α) :
    Prop :=
  ∀ f s, I f s → Rests I Q f (x s)

/-- An activity keeps `I`. -/
abbrev Keeps (I : Option κ → Storage → Prop) (x : Activity Storage α) : Prop :=
  Gives I (fun _ _ => True) x

/-- An action keeps `I`. -/
def KeepsNow (I : φ → Storage → Prop) (x : Action Storage α) : Prop :=
  ∀ f s, I f s → I f (exec x s).2

namespace Gives

theorem keeps {x : Activity Storage α} (h : Gives I Q x) : Keeps I x :=
  fun f s hs => (h f s hs).mono fun _ _ _ => trivial

/-- What comes of an activity that keeps `P`, if every wait is answered at once. -/
theorem finish {P : Storage → Prop} (hP : Unlocked P) {x : Activity Storage α}
    (h : Gives (Always P) Q x) {s : Storage} (hs : P s) :
    P (ended x s).2 ∧ ∀ a, (ended x s).1 = .ok a → Q a (ended x s).2 := (h none s hs).finish hP

theorem bind {x : Activity Storage α} {k : α → Activity Storage β} (hx : Gives I Q x)
    (hk : ∀ f a s, I f s → Q a s → Rests I R f (k a s)) : Gives I R (x >>= k) :=
  fun f s hs => (hx f s hs).bind hk

end Gives

namespace Keeps

theorem pure (a : α) : Keeps I (pure a : Activity Storage α) :=
  fun _ _ hs => .done hs fun _ _ => trivial

theorem fail (e : Failure) : Keeps I (Activity.fail e : Activity Storage α) :=
  fun _ _ hs => .done hs fun _ _ => trivial

theorem throw (e : Failure) : Keeps I (throw e : Activity Storage α) := fail e

theorem bind {x : Activity Storage α} {k : α → Activity Storage β} (hx : Keeps I x)
    (hk : ∀ a, Keeps I (k a)) : Keeps I (x >>= k) :=
  Gives.bind hx fun f a s hs _ => hk a f s hs

theorem ite {c : Prop} [Decidable c] {x y : Activity Storage α} (hx : Keeps I x)
    (hy : Keeps I y) : Keeps I (if c then x else y) := by
  split
  · exact hx
  · exact hy

theorem getThen {k : Storage → Activity Storage α} (hk : ∀ s, Keeps I (k s)) :
    Keeps I (get >>= k) := fun f s hs => hk s f s hs

theorem ofAction {x : Action Storage α} (hx : KeepsNow I x) : Keeps I (Activity.ofAction x) :=
  fun f s hs => .done (hx f s hs) fun _ _ => trivial

theorem ensuring {x : Activity Storage α} {last : Action Storage Unit} (hx : Keeps I x)
    (hlast : KeepsNow I last) : Keeps I (x.ensuring last) := fun f s hs =>
  (hx f s hs).attempt fun f r t ht _ => by
    have hu : I f (last.run.run t).2 := hlast f t ht
    rcases hrun : last.run.run t with ⟨r', u⟩
    rw [hrun] at hu
    cases r' <;> exact .done hu fun _ _ => trivial

end Keeps

/-- What does not speak of locks is kept while somebody waits for one. -/
theorem Gives.holding (hI : ∀ f, Unlocked (I f)) (hQ : ∀ a, Unlocked (Q a))
    {x : Activity Storage α} (hx : Gives I Q x) (key : Lock) :
    Gives I Q (Storage.holding key x) := by
  have hacquire : Keeps I (Storage.acquire key) := fun f s hs => by
    cases hline : Storage.waitersOf? s.store.held key with
    | none =>
      rw [Storage.acquire_free hline]
      exact .done (hI f s _ _ hs) fun _ _ => trivial
    | some n =>
      rw [Storage.acquire_held hline]
      refine .waits (hI f s _ _ hs) fun g f t u ht hu => ?_
      cases g with
      | cancel =>
        obtain rfl := Option.some.inj hu
        refine .done ?_ nofun
        unfold Storage.leaveLine
        split
        · exact hI f t _ _ ht
        · exact ht
      | proceed =>
        obtain ⟨-, rfl⟩ := wake_lock hu
        exact .done (hI f t _ _ ht) fun _ _ => trivial
  have hrelease (s : Storage) : ∃ held granted, (Storage.release key).run.run s =
      (.ok (), { s with store := { s.store with held := held, granted := granted } }) := by
    change ∃ held granted, exec (Storage.release key) s = _
    unfold Storage.release
    rw [Storage.exec_onStore]
    dsimp only
    split
    · exact ⟨_, _, rfl⟩
    · exact ⟨_, _, rfl⟩
  refine Gives.bind hacquire fun f _ s hs _ => (hx f s hs).attempt fun f r t ht hr => ?_
  obtain ⟨held, granted, hrun⟩ := hrelease t
  rw [hrun]
  exact .done (hI f t _ _ ht) fun a ha => hQ a t _ _ (hr a ha)

/-! ## Actions -/

namespace KeepsNow

variable {I : φ → Storage → Prop}

theorem pure (a : α) : KeepsNow I (pure a : Action Storage α) := fun _ _ hs => hs

theorem throw (e : Failure) : KeepsNow I (throw e : Action Storage α) := fun _ _ hs => hs

theorem bind {x : Action Storage α} {k : α → Action Storage β} (hx : KeepsNow I x)
    (hk : ∀ a, KeepsNow I (k a)) : KeepsNow I (x >>= k) := fun f s hs => by
  have ht := hx f s hs
  rw [exec_bind]
  rcases hrun : exec x s with ⟨r, t⟩
  rw [hrun] at ht
  cases r with
  | ok a => exact hk a f t ht
  | error e => exact ht

theorem ite {c : Prop} [Decidable c] {x y : Action Storage α} (hx : KeepsNow I x)
    (hy : KeepsNow I y) : KeepsNow I (if c then x else y) := by
  split
  · exact hx
  · exact hy

theorem getThen {k : Storage → Action Storage α} (hk : ∀ s, KeepsNow I (k s)) :
    KeepsNow I (get >>= k) := fun f s hs => by
  rw [exec_bind, exec_get]
  exact hk s f s hs

theorem tryCatch {x : Action Storage α} {k : Failure → Action Storage α} (hx : KeepsNow I x)
    (hk : ∀ e, KeepsNow I (k e)) : KeepsNow I (tryCatch x k) := fun f s hs => by
  have ht := hx f s hs
  rw [exec_tryCatch]
  rcases hrun : exec x s with ⟨r, t⟩
  rw [hrun] at ht
  cases r with
  | ok a => exact ht
  | error e => exact hk e f t ht

/-- What only looks at the storage keeps everything. -/
theorem ofSame {x : Action Storage α} (h : ∀ s, (exec x s).2 = s) : KeepsNow I x :=
  fun f s hs => by rw [h s]; exact hs

theorem now : KeepsNow I Storage.now := ofSame fun _ => rfl

theorem context : KeepsNow I Storage.context := ofSame fun _ => rfl

theorem rootOr (r : Root) : KeepsNow I (Storage.rootOr r) := ofSame fun _ => rfl

theorem checkWritable (chat : String) : KeepsNow I (Storage.checkWritable chat) :=
  ofSame fun s => by rw [Storage.exec_checkWritable]

end KeepsNow

/-! ## Writing what is dirty -/

/-- `I` does not speak of timers, and is kept when a document that may be dirty is written. -/
structure KeepsFlushing (root : Prop) (chats : String → Prop) (I : φ → Storage → Prop) : Prop where
  timers : ∀ f s rootTimer valuesTimer clock, I f s → I f
    { s with
      store := { s.store with rootTimer := rootTimer, valuesTimer := valuesTimer }
      clock := clock }
  dirtyRoot : ∀ f s, I f s → s.store.rootDirty = true → root
  dirtyChats : ∀ f s, I f s → ∀ c ∈ s.store.dirty, chats c
  save : root → KeepsNow I Storage.save
  saveValues : ∀ chat, chats chat → KeepsNow I (Storage.saveValues chat)

/-- `I` is kept when any document is written. -/
abbrev KeepsWriting (I : φ → Storage → Prop) : Prop := KeepsFlushing True (fun _ => True) I

namespace KeepsFlushing

variable {root : Prop} {chats : String → Prop} {I : φ → Storage → Prop}

/-- To write the root is to attempt it, or to do nothing. -/
theorem saveOf {s : Storage} {P : Storage → Prop} (hs : P s)
    (htimer : P { s with store := { s.store with rootTimer := none } })
    (hroot : ∀ r, s.store.root = some r → s.store.rootDegraded = false →
      r.document.writable = true → P (s.attemptRoot r).2) : P (exec Storage.save s).2 := by
  cases hr : s.store.root with
  | none =>
    rw [Storage.exec_save_none hr]
    exact hs
  | some r =>
    cases hd : s.store.rootDegraded with
    | true =>
      rw [Storage.exec_save_degraded hr hd]
      exact htimer
    | false =>
      cases hw : r.document.writable with
      | false =>
        rw [Storage.exec_save_long hr hd hw]
        exact htimer
      | true =>
        rw [Storage.exec_save_root hr hd hw]
        exact hroot r hr hd hw

/-- To write the values of a chat is to attempt it, or to do nothing; what is too long to be written
is not dirty any more. -/
theorem saveValuesOf {s : Storage} {chat : String} {P : Storage → Prop} (hs : P s)
    (hchat : ∀ vs, s.store.cached? chat = some vs → s.store.isDegraded chat = false →
      vs = [] ∨ (ChatValues.document chat vs).writable = true → P (s.attemptChat chat vs).2)
    (hlong : ∀ vs, s.store.cached? chat = some vs → s.store.isDegraded chat = false → vs ≠ [] →
      (ChatValues.document chat vs).writable = false →
      P { s with store := { s.store with dirty := s.store.dirty.filter (· != chat) } }) :
    P (exec (Storage.saveValues chat) s).2 := by
  cases hc : s.store.cached? chat with
  | none =>
    rw [Storage.exec_saveValues_none hc]
    exact hs
  | some vs =>
    cases hd : s.store.isDegraded chat with
    | true =>
      rw [Storage.exec_saveValues_degraded hc hd]
      exact hs
    | false =>
      by_cases hw : vs = [] ∨ (ChatValues.document chat vs).writable
      · rw [Storage.exec_saveValues_chat hc hd hw]
        exact hchat vs hc hd hw
      · obtain ⟨hne, hw⟩ := not_or.mp hw
        rw [Storage.exec_saveValues_long hc hd hne (Bool.eq_false_iff.mpr hw)]
        exact hlong vs hc hd hne (Bool.eq_false_iff.mpr hw)

/-- It is enough that an attempt to write a document keeps `I`, and that `I` does not speak of
timers and of what is dirty. -/
theorem ofAttempts
    (hquiet : ∀ f s rootDirty dirty rootTimer valuesTimer clock, I f s → I f
      { s with
        store := { s.store with
          rootDirty := rootDirty, dirty := dirty
          rootTimer := rootTimer, valuesTimer := valuesTimer }
        clock := clock })
    (hroot : ∀ f s r, I f s → s.store.root = some r → s.store.rootDegraded = false →
      r.document.writable = true → I f (s.attemptRoot r).2)
    (hchat : ∀ f s chat vs, I f s → s.store.cached? chat = some vs →
      s.store.isDegraded chat = false → vs = [] ∨ (ChatValues.document chat vs).writable = true →
        I f (s.attemptChat chat vs).2) : KeepsWriting I where
  timers f s rootTimer valuesTimer clock hs := hquiet f s _ _ rootTimer valuesTimer clock hs
  dirtyRoot _ _ _ _ := trivial
  dirtyChats _ _ _ _ _ := trivial
  save _ f s hs := saveOf hs (hquiet f s _ _ _ _ _ hs) fun r => hroot f s r hs
  saveValues chat _ f s hs :=
    saveValuesOf hs (fun vs => hchat f s chat vs hs) fun _ _ _ _ _ => hquiet f s _ _ _ _ _ hs

theorem and {P Q : Storage → Prop} (hP : KeepsWriting (Always P)) (hQ : KeepsWriting (Always Q)) :
    KeepsWriting (Always fun s => P s ∧ Q s) where
  timers f s _ _ _ hs := ⟨hP.timers f s _ _ _ hs.1, hQ.timers f s _ _ _ hs.2⟩
  dirtyRoot _ _ _ _ := trivial
  dirtyChats _ _ _ _ _ := trivial
  save _ f s hs := ⟨hP.save trivial f s hs.1, hQ.save trivial f s hs.2⟩
  saveValues chat _ f s hs := ⟨hP.saveValues chat trivial f s hs.1, hQ.saveValues chat trivial f s hs.2⟩

/-- What does not change while documents are written. -/
theorem ofMemory {P : Storage → Prop}
    (h : ∀ s rootDirty dirty rootTimer valuesTimer shelf clock, P s → P
      { s with
        store := { s.store with
          rootDirty := rootDirty, dirty := dirty
          rootTimer := rootTimer, valuesTimer := valuesTimer }
        shelf := shelf, clock := clock }) : KeepsWriting (Always P) := by
  refine .ofAttempts (fun _ s _ _ _ _ _ hs => h s _ _ _ _ s.shelf _ hs) (fun _ s r hs _ _ _ => ?_)
    fun _ s c vs hs _ _ _ => ?_
  · obtain ⟨_, _, hrun, -, -⟩ := s.attemptRoot_cases r
    rw [hrun]
    exact h s _ _ _ _ _ s.clock hs
  · obtain ⟨_, _, hrun, -⟩ := s.attemptChat_cases c vs
    rw [hrun]
    exact h s _ _ _ _ _ s.clock hs

theorem noting {x : Action Storage Unit} (hx : KeepsNow I x) : KeepsNow I (Storage.noting x) := by
  refine KeepsNow.tryCatch ?_ fun e => ?_
  · rw [seqRight_eq_bind]
    exact hx.bind fun _ => .pure _
  · cases e with
    | storage e => exact .pure _
    | _ => exact .throw _

theorem saveEach (h : KeepsFlushing root chats I) {l : List String} (hl : ∀ c ∈ l, chats c) :
    KeepsNow I (Storage.saveEach l) := by
  induction l with
  | nil => exact .pure _
  | cons chat l ih =>
    have hchat := h.saveValues chat (hl chat List.mem_cons_self)
    have ih := ih fun c hc => hl c (List.mem_cons_of_mem chat hc)
    exact (noting hchat).bind fun _ => ih.bind fun _ => .pure _

theorem flushValues (h : KeepsFlushing root chats I) : KeepsNow I Storage.flushValues := by
  refine KeepsNow.bind (x := Storage.onStore _) (fun f s hs => h.timers f s _ _ _ hs) fun _ => ?_
  intro f s hs
  rw [exec_bind, Storage.exec_store?]
  exact h.saveEach (h.dirtyChats f s hs) f s hs

theorem flushing (h : KeepsFlushing root chats I) : KeepsNow I Storage.flushing := by
  have hroot : KeepsNow I Storage.flushRoot := fun f s hs => by
    rw [Storage.flushRoot, exec_bind, exec_get]
    dsimp only
    split
    · next hdirty =>
      rw [Bool.and_eq_true] at hdirty
      exact noting (h.save (h.dirtyRoot f s hs hdirty.1)) f s hs
    · exact hs
  exact hroot.bind fun fault => h.flushValues.bind fun faults => .pure _

theorem flush (h : KeepsFlushing root chats I) : KeepsNow I Storage.flush := by
  refine h.flushing.bind fun faults => ?_
  cases faults with
  | nil => exact .pure _
  | cons e r => exact .throw _

theorem flushQuietly (h : KeepsFlushing root chats I) : KeepsNow I Storage.flushQuietly :=
  h.flushing.bind fun _ => .pure _

theorem close (h : KeepsFlushing root chats I) : KeepsNow I Storage.close :=
  KeepsNow.bind (x := Storage.onStore _) (fun f s hs => h.timers f s _ _ _ hs) fun _ => h.flush

theorem unheard {x : Action Storage Unit} (hx : KeepsNow I x) : KeepsNow I (Storage.unheard x) :=
  hx.tryCatch fun _ => .pure _

theorem fire (h : KeepsFlushing root chats I) (t : Storage.Timer) : KeepsNow I t.fire := by
  cases t with
  | root =>
    refine KeepsNow.bind (x := Storage.onStore _) (fun f s hs => h.timers f s _ _ _ hs) fun _ => ?_
    intro f s hs
    rw [exec_bind, exec_get]
    dsimp only
    split
    · next hdirty => exact unheard (h.save (h.dirtyRoot f s hs hdirty)) f s hs
    · exact hs
  | values =>
    refine KeepsNow.bind (x := Storage.onStore _) (fun f s hs => h.timers f s _ _ _ hs) fun _ => ?_
    refine unheard fun f s hs => ?_
    rw [exec_bind, Storage.exec_store?]
    exact ((h.saveEach (h.dirtyChats f s hs)).bind fun _ => .pure _) f s hs

theorem elapse (h : KeepsFlushing root chats I) (time : Nat) : KeepsNow I (Storage.elapse time) := by
  refine KeepsNow.getThen fun s => ?_
  refine KeepsNow.bind (x := List.forM _ _) ?_ fun _ => fun f s hs => h.timers f s _ _ _ hs
  generalize Storage.timers s.store = ts
  induction ts with
  | nil => exact .pure _
  | cons t ts ih =>
    refine KeepsNow.bind (x := t.fireBy _) (.getThen fun s => ?_) fun _ => ih
    split
    · exact .ite (h.fire t) (.pure _)
    · exact .pure _

end KeepsFlushing

/-! ## What a successful end leaves -/

namespace Storage

variable {s t : Storage} {chat : String}

theorem exec_of_noting {x : Action Storage Unit} (h : exec (noting x) s = (.ok none, t)) :
    exec x s = (.ok (), t) := by
  unfold noting at h
  rw [exec_tryCatch, exec_seqRight] at h
  rcases hrun : exec x s with ⟨a, u⟩
  rw [hrun] at h
  cases a with
  | ok _ =>
    obtain ⟨-, rfl⟩ := Prod.mk.inj h
    rfl
  | error e =>
    cases e with
    | storage e => cases (Prod.mk.inj h).1
    | _ => cases (Prod.mk.inj h).1

theorem clean_of_save (hsome : s.store.root.isSome = true) (h : exec save s = (.ok (), t)) :
    t.store.rootDirty = false := by
  obtain ⟨r, hr⟩ := Option.isSome_iff_exists.mp hsome
  cases hd : s.store.rootDegraded with
  | true =>
    rw [exec_save_degraded hr hd] at h
    cases (Prod.mk.inj h).1
  | false =>
    cases hw : r.document.writable with
    | false =>
      rw [exec_save_long hr hd hw] at h
      cases (Prod.mk.inj h).1
    | true =>
      rw [exec_save_root hr hd hw] at h
      exact clean_of_attemptRoot h

/-- A chat whose values were written is not dirty, unless there was nothing to write. -/
theorem clean_of_saveValues (h : exec (saveValues chat) s = (.ok (), t)) :
    ∃ dirty, t.store = { s.store with dirty := dirty } ∧
      ∀ c ∈ dirty, c ∈ s.store.dirty ∧ (c = chat → s.store.cached? c = none) := by
  cases hc : s.store.cached? chat with
  | none =>
    rw [exec_saveValues_none hc] at h
    obtain ⟨-, rfl⟩ := Prod.mk.inj h
    exact ⟨s.store.dirty, rfl, fun c hdirty => ⟨hdirty, fun e => e ▸ hc⟩⟩
  | some vs =>
    cases hd : s.store.isDegraded chat with
    | true =>
      rw [exec_saveValues_degraded hc hd] at h
      cases (Prod.mk.inj h).1
    | false =>
      by_cases hw : vs = [] ∨ (ChatValues.document chat vs).writable
      · rw [exec_saveValues_chat hc hd hw] at h
        obtain ⟨dirty, shelf, hrun, -, hothers, hcases⟩ := s.attemptChat_cases chat vs
        rw [h] at hrun
        obtain rfl : t = _ := hrun
        have hdone := clean_of_attemptChat h
        refine ⟨dirty, rfl, fun c hmem => ?_⟩
        have hne : c ≠ chat := fun e => hdone (e ▸ hmem)
        exact ⟨(hothers c hne).mp hmem, fun e => absurd e hne⟩
      · obtain ⟨hne, hw⟩ := not_or.mp hw
        rw [exec_saveValues_long hc hd hne (Bool.eq_false_iff.mpr hw)] at h
        cases (Prod.mk.inj h).1

theorem clean_of_saveEach {l : List String} (h : exec (saveEach l) s = (.ok [], t)) :
    ∃ dirty, t.store = { s.store with dirty := dirty } ∧
      ∀ c ∈ dirty, c ∈ s.store.dirty ∧ (c ∈ l → s.store.cached? c = none) := by
  induction l generalizing s with
  | nil =>
    obtain ⟨-, rfl⟩ := Prod.mk.inj h
    exact ⟨s.store.dirty, rfl, fun c hc => ⟨hc, nofun⟩⟩
  | cons chat l ih =>
    unfold saveEach at h
    rw [exec_bind] at h
    rcases hfirst : exec (noting (saveValues chat)) s with ⟨a, u⟩
    rw [hfirst] at h
    cases a with
    | error e => cases (Prod.mk.inj h).1
    | ok fault =>
      dsimp only at h
      rw [exec_bind] at h
      rcases hrest : exec (saveEach l) u with ⟨b, w⟩
      rw [hrest] at h
      cases b with
      | error e => cases (Prod.mk.inj h).1
      | ok faults =>
        obtain ⟨hnone, rfl⟩ := Prod.mk.inj h
        obtain ⟨hfault, rfl⟩ := List.append_eq_nil_iff.mp (Except.ok.inj hnone)
        cases fault with
        | some e => cases hfault
        | none =>
          obtain ⟨dirty, hstore, hfewer⟩ := clean_of_saveValues (exec_of_noting hfirst)
          obtain ⟨dirty', hstore', hfewer'⟩ := ih hrest
          rw [hstore] at hstore' hfewer'
          refine ⟨dirty', hstore', fun c hc => ?_⟩
          obtain ⟨hmem, hnot⟩ := hfewer' c hc
          refine ⟨(hfewer c hmem).1, fun hl => ?_⟩
          rcases List.mem_cons.mp hl with he | hl
          · exact (hfewer c hmem).2 he
          · exact hnot hl

/-- After everything was written, nothing that is in memory is dirty. -/
theorem clean_of_flush (h : exec flush s = (.ok (), t)) :
    (t.store.root.isSome = true → t.store.rootDirty = false) ∧
      ∀ c ∈ t.store.dirty, t.store.cached? c = none := by
  unfold flush flushing at h
  rw [exec_bind, exec_bind] at h
  rcases hroot : exec flushRoot s with ⟨a, u⟩
  rw [hroot] at h
  cases a with
  | error e => cases (Prod.mk.inj h).1
  | ok fault =>
    dsimp only at h
    rw [exec_bind] at h
    rcases hvalues : exec flushValues u with ⟨b, w⟩
    rw [hvalues] at h
    cases b with
    | error e => cases (Prod.mk.inj h).1
    | ok faults =>
      dsimp only at h
      rw [exec_pure] at h
      dsimp only at h
      cases fault with
      | some e => cases (Prod.mk.inj h).1
      | none =>
        cases faults with
        | cons e es => cases (Prod.mk.inj h).1
        | nil =>
          obtain ⟨-, rfl⟩ := Prod.mk.inj h
          have hrootDone : u.store.root.isSome = true → u.store.rootDirty = false := by
            unfold flushRoot at hroot
            rw [exec_bind, exec_get] at hroot
            dsimp only at hroot
            split at hroot
            · next hdirty =>
              rw [Bool.and_eq_true] at hdirty
              exact fun _ => clean_of_save hdirty.2 (exec_of_noting hroot)
            · next hnone =>
              obtain ⟨-, rfl⟩ := Prod.mk.inj hroot
              intro hsome
              rw [hsome, Bool.and_true] at hnone
              exact Bool.eq_false_iff.mpr hnone
          unfold flushValues at hvalues
          rw [exec_bind, exec_onStore] at hvalues
          dsimp only at hvalues
          rw [exec_bind, exec_store?] at hvalues
          dsimp only at hvalues
          obtain ⟨dirty, hstore, hfewer⟩ := clean_of_saveEach hvalues
          rw [hstore]
          exact ⟨hrootDone, fun c hc => (hfewer c hc).2 (hfewer c hc).1⟩

theorem clean_of_close (h : exec close s = (.ok (), t)) :
    (t.store.root.isSome = true → t.store.rootDirty = false) ∧
      ∀ c ∈ t.store.dirty, t.store.cached? c = none := by
  unfold close at h
  rw [exec_bind, exec_onStore] at h
  exact clean_of_flush h

end Storage

end TagLedger
