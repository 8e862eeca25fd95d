import TagLedger.Proofs.Analysing

/-!
# Storages that agree on a chat

Something is done twice, each time with a label of its own, and the values of a chat come to differ
in no more than that: where one has the label `f`, the other has `g`. With the root in memory, what
is done to the values of the chat depends on these values, on its document, on the clock and on what
is refused, and on no value of another chat.

    Agree r c f g s t → the same is done to c in s and t, and they agree      (Couples.editValue)
    Agree r c f g a s → something is done to d ≠ c in s, and they agree       (Agree.holds_editValue)
-/

namespace TagLedger

variable {σ α β : Type} {f g : String}

/-! ## Two runs -/

theorem ended_tryCatch (x : Activity σ α) (k : Failure → Activity σ α) (s : σ) :
    ended (tryCatch x k) s = match ended x s with
      | (.ok a, t) => (.ok a, t)
      | (.error e, t) => ended (k e) t := by
  refine (finish_attempt (x s) _).trans ?_
  unfold ended
  rcases (x s).finish with ⟨_ | _, t⟩ <;> rfl

/-- What catches a failure goes on where `x` failed. -/
theorem Meets.tryCatch {E P : σ → Prop} {Q : α → σ → Prop} {x : Activity σ α}
    {k : Failure → Activity σ α} (hx : Meets E P x Q) (hk : ∀ e, Meets E E (k e) Q) :
    Meets E P (tryCatch x k) Q := fun s hs => by
  have ha := hx s hs
  rw [ended_tryCatch]
  rcases hrun : ended x s with ⟨e | a, t⟩
  · rw [hrun] at ha
    exact hk e t ha
  · rw [hrun] at ha
    exact ha

/-- Begun in states that `R` relates, `x` and `y` fail in the same way or give what `A` relates, and
leave states that `R` relates. -/
def Couples (R : σ → σ → Prop) (x y : Activity σ α) (A : α → α → Prop) : Prop :=
  ∀ s t, R s t → R (ended x s).2 (ended y t).2 ∧
    match (ended x s).1, (ended y t).1 with
    | .ok a, .ok b => A a b
    | .error e, .error e' => e' = e
    | _, _ => False

/-- Begun in states that `R` relates, `x` gives the same. -/
abbrev Likewise (R : σ → σ → Prop) (x : Activity σ α) : Prop := Couples R x x fun a b => b = a

namespace Couples

variable {R : σ → σ → Prop} {A : α → α → Prop} {B : β → β → Prop}

/-- Both end well. -/
theorem ok {x y : Activity σ α}
    (h : ∀ s t, R s t → ∃ a s' b t', ended x s = (.ok a, s') ∧ ended y t = (.ok b, t') ∧
      A a b ∧ R s' t') : Couples R x y A := fun s t hst => by
  obtain ⟨a, s', b, t', hx, hy, ha, hr⟩ := h s t hst
  rw [hx, hy]
  exact ⟨hr, ha⟩

theorem pure {a b : α} (h : A a b) : Couples R (pure a) (pure b) A := fun _ _ hst => ⟨hst, h⟩

theorem throw (e : Failure) :
    Couples R (throw e : Activity σ α) (throw e : Activity σ α) A := fun _ _ hst => ⟨hst, rfl⟩

theorem bind {x y : Activity σ α} {k l : α → Activity σ β} (hx : Couples R x y A)
    (hk : ∀ a b, A a b → Couples R (k a) (l b) B) : Couples R (x >>= k) (y >>= l) B :=
  fun s t hst => by
    obtain ⟨hr, ha⟩ := hx s t hst
    rw [ended_bind, ended_bind]
    rcases hs : ended x s with ⟨a, s'⟩
    rcases ht : ended y t with ⟨b, t'⟩
    rw [hs, ht] at hr ha
    match a, b, ha with
    | .ok a, .ok b, ha => exact hk a b ha s' t' hr
    | .error _, .error _, ha => exact ⟨hr, ha⟩

/-- What comes after something that gives the same. -/
theorem likewise {x : Activity σ α} {k l : α → Activity σ β} (hx : Likewise R x)
    (hk : ∀ a, Couples R (k a) (l a) B) : Couples R (x >>= k) (x >>= l) B :=
  hx.bind fun a _ hb => hb ▸ hk a

theorem look {k l : σ → Activity σ α} (h : ∀ s t, R s t → Couples R (k s) (l t) A) :
    Couples R (get >>= k) (get >>= l) A := fun s t hst => h s t hst s t hst

theorem ite {p : Prop} [Decidable p] {x y x' y' : Activity σ α} (h : Couples R x y A)
    (h' : Couples R x' y' A) : Couples R (if p then x else x') (if p then y else y') A := by
  split
  · exact h
  · exact h'

/-- Failures are treated alike. -/
theorem tryCatch {x y : Activity σ α} {k l : Failure → Activity σ α} (hx : Couples R x y A)
    (hk : ∀ e, Couples R (k e) (l e) A) : Couples R (tryCatch x k) (tryCatch y l) A :=
  fun s t hst => by
    obtain ⟨hr, ha⟩ := hx s t hst
    rw [ended_tryCatch, ended_tryCatch]
    rcases hs : ended x s with ⟨a, s'⟩
    rcases ht : ended y t with ⟨b, t'⟩
    rw [hs, ht] at hr ha
    match a, b, ha with
    | .ok _, .ok _, ha => exact ⟨hr, ha⟩
    | .error e, .error _, ha => exact ha ▸ hk e s' t' hr

/-- The same is done afterwards, whatever became of it. -/
theorem ensuring {x y : Activity σ α} {last : Action σ Unit} (hx : Couples R x y A)
    (hlast : Likewise R (.ofAction last)) : Couples R (x.ensuring last) (y.ensuring last) A :=
  fun s t hst => by
    obtain ⟨hr, ha⟩ := hx s t hst
    obtain ⟨hr, hdone⟩ := hlast _ _ hr
    rw [ended_ofAction, ended_ofAction] at hr hdone
    rw [ended_ensuring, ended_ensuring]
    rcases hs : exec last (ended x s).2 with ⟨a, s'⟩
    rcases ht : exec last (ended y t).2 with ⟨b, t'⟩
    rw [hs, ht] at hr hdone
    match a, b, hdone with
    | .ok _, .ok _, _ => exact ⟨hr, ha⟩
    | .error _, .error _, hdone => exact ⟨hr, hdone⟩

theorem ofExcept {ε : Type} (e : ε → Failure) (a : Except ε α) :
    Likewise R (Activity.ofExcept e a : Activity σ α) := by
  cases a with
  | ok a => exact .pure rfl
  | error x => exact .throw (e x)

theorem same {x y : Activity σ α} (h : Couples R x y fun a b => b = a) {s t : σ} (hst : R s t) :
    (ended y t).1 = (ended x s).1 := by
  have ha := (h s t hst).2
  revert ha
  rcases (ended x s).1 with e | a <;> rcases (ended y t).1 with e' | b
  · exact congrArg Except.error
  · exact False.elim
  · exact False.elim
  · exact congrArg Except.ok

end Couples

/-! ## Values that differ in a label -/

/-- One text for the floors of a content stands where another does: it is the same, or the one is
`f` and the other `g`. -/
def Relabels (f g a b : String) : Prop := b = a ∨ a = f ∧ b = g

theorem Relabels.refl (a : String) : Relabels f g a a := Or.inl rfl

theorem Relabels.eq {a b : String} (h : Relabels f f a b) : b = a :=
  h.elim id fun h => h.2.trans h.1.symm

structure Entry.Relabels (f g : String) (e e' : Entry) : Prop where
  floors : TagLedger.Relabels f g e.floors e'.floors
  others : e' = { e with floors := e'.floors }

abbrev Entry.AllRelabels (f g : String) : List Entry → List Entry → Prop :=
  List.Forall₂ (Entry.Relabels f g)

structure Stack.Relabels (f g : String) (s s' : Stack) : Prop where
  entries : Entry.AllRelabels f g s.entries s'.entries
  others : s' = { s with entries := s'.entries }

structure Slot.Relabels (f g : String) (s s' : Slot) : Prop where
  floors : Option.Rel (TagLedger.Relabels f g) s.floors s'.floors
  history : Entry.AllRelabels f g s.history s'.history
  others : s' = { s with floors := s'.floors, history := s'.history }

inductive Value.Relabels (f g : String) : Value → Value → Prop where
  | stack {s s' : Stack} (h : s.Relabels f g s') : Value.Relabels f g (.stack s) (.stack s')
  | slot {s s' : Slot} (h : s.Relabels f g s') : Value.Relabels f g (.slot s) (.slot s')

/-- The same variables have values, and these differ in a label. -/
abbrev ChatValues.Relabels (f g : String) : ChatValues → ChatValues → Prop :=
  List.Forall₂ fun v w => w.1 = v.1 ∧ Value.Relabels f g v.2 w.2

/-! ### Labels that are the same -/

theorem Entry.Relabels.refl (e : Entry) : Entry.Relabels f g e e := ⟨.refl _, rfl⟩

theorem Entry.AllRelabels.refl (es : List Entry) : Entry.AllRelabels f g es es :=
  List.forall₂_same.mpr fun e _ => .refl e

theorem Entry.AllRelabels.eq {es es' : List Entry} (h : Entry.AllRelabels f f es es') :
    es' = es := by
  induction h with
  | nil => rfl
  | cons he _ ih => rw [ih, he.others, he.floors.eq]

namespace Value.Relabels

theorem refl (v : Value) : Value.Relabels f g v v := by
  cases v with
  | stack s => exact .stack ⟨.refl _, rfl⟩
  | slot s =>
    refine .slot ⟨?_, .refl _, rfl⟩
    cases s.floors with
    | none => exact .none
    | some a => exact .some (.refl a)

theorem eq {v w : Value} (h : Value.Relabels f f v w) : w = v := by
  cases h with
  | @stack s s' h => rw [h.others, h.entries.eq]
  | @slot s s' h =>
    have hfloors : s'.floors = s.floors := by
      have hrel := h.floors
      generalize s.floors = a at hrel
      generalize s'.floors = b at hrel
      cases hrel with
      | some h => exact congrArg some h.eq
      | none => rfl
    rw [h.others, hfloors, h.history.eq]

end Value.Relabels

namespace ChatValues.Relabels

theorem refl (vs : ChatValues) : ChatValues.Relabels f g vs vs :=
  List.forall₂_same.mpr fun v _ => ⟨rfl, .refl v.2⟩

theorem eq {vs ws : ChatValues} (h : ChatValues.Relabels f f vs ws) : ws = vs := by
  induction h with
  | nil => rfl
  | cons hv _ ih => rw [ih, Prod.ext hv.1 hv.2.eq]

theorem find? {vs ws : ChatValues} (h : ChatValues.Relabels f g vs ws) (id : String) :
    Option.Rel (Value.Relabels f g) (Json.find? vs id) (Json.find? ws id) := by
  induction h with
  | nil => exact .none
  | @cons v w _ _ hv _ ih =>
    obtain ⟨k, v⟩ := v
    obtain ⟨k', w⟩ := w
    obtain ⟨rfl, hv⟩ : k' = k ∧ Value.Relabels f g v w := hv
    rw [Json.find?_cons, Json.find?_cons]
    split
    · exact .some hv
    · exact ih

theorem insert {vs ws : ChatValues} {v w : Value} (h : ChatValues.Relabels f g vs ws)
    (hv : Value.Relabels f g v w) (id : String) :
    ChatValues.Relabels f g (Json.insert vs id v) (Json.insert ws id w) := by
  induction h with
  | nil => exact .cons ⟨rfl, hv⟩ .nil
  | @cons u u' _ _ hu hrest ih =>
    obtain ⟨k, u⟩ := u
    obtain ⟨k', u'⟩ := u'
    obtain ⟨rfl, hu⟩ : k' = k ∧ Value.Relabels f g u u' := hu
    unfold Json.insert
    split
    · exact .cons ⟨rfl, hv⟩ hrest
    · exact .cons ⟨rfl, hu⟩ ih

end ChatValues.Relabels

theorem Value.Relabels.sameKind {v w v' w' : Value} (h : Value.Relabels f g v w)
    (h' : Value.Relabels f g v' w') : w.sameKind w' = v.sameKind v' := by
  cases h <;> cases h' <;> rfl

/-! ### Another content -/

/-- Two stacks take a content, each under its label. -/
theorem Stack.Relabels.push {s s' : Stack} (h : s.Relabels f g s') (content : String) (now : Int) :
    (s.push content f now).Relabels f g (s'.push content g now) := by
  have hnext : s'.nextId = s.nextId := by rw [h.others]
  unfold Stack.push
  rw [hnext]
  exact ⟨List.rel_append h.entries (.cons ⟨Or.inr ⟨rfl, rfl⟩, rfl⟩ .nil), rfl⟩

/-- What a slot shows as the floors of its content is a label that stands for the other. -/
theorem Slot.Relabels.label {s s' : Slot} (h : s.Relabels f g s') (hf : f ≠ "") (hg : g ≠ "") :
    TagLedger.Relabels f g s.label s'.label := by
  have hfloor : s'.floorText = s.floorText := by
    rw [h.others]
    rfl
  have hfloors := h.floors
  unfold Slot.label
  rw [hfloor]
  generalize s.floors = a at hfloors
  generalize s'.floors = b at hfloors
  cases hfloors with
  | none => exact .refl _
  | some h =>
    rcases h with rfl | ⟨rfl, rfl⟩
    · exact .refl _
    · dsimp only
      rw [if_neg hf, if_neg hg]
      exact Or.inr ⟨rfl, rfl⟩

/-- Two slots take a content, each under its label. -/
theorem Slot.Relabels.put {s s' : Slot} (h : s.Relabels f g s') (hf : f ≠ "") (hg : g ≠ "")
    (content : String) (now : Int) : (s.put content f now).Relabels f g (s'.put content g now) where
  floors := .some (Or.inr ⟨rfl, rfl⟩)
  history := by
    have hcurrent : s'.current = s.current := by rw [h.others]
    unfold Slot.put Slot.archived
    dsimp only
    rw [hcurrent, h.history.length_eq]
    split
    · exact h.history
    · exact List.rel_append h.history (.cons ⟨h.label hf hg, rfl⟩ .nil)
  others := rfl

/-- Both are there, or none is. -/
theorem rel_cases {A : α → β → Prop} {x : Option α} {y : Option β} (h : Option.Rel A x y) :
    x = none ∧ y = none ∨ ∃ a b, x = some a ∧ y = some b ∧ A a b := by
  cases h with
  | some h => exact Or.inr ⟨_, _, rfl, rfl, h⟩
  | none => exact Or.inl ⟨rfl, rfl⟩

/-! ## Storages -/

namespace Storage

variable {r : Root} {c : String} {s s' t t' u : Storage}

/-- In `t` nothing but the values of chats, what waits to be written and what was asked of the shelf
is not as it is in `s`. -/
structure Framed (s t : Storage) : Prop where
  root : t.store.root = s.store.root
  rootDegraded : t.store.rootDegraded = s.store.rootDegraded
  removed : t.store.removed = s.store.removed
  valuesStart : t.store.valuesStart = s.store.valuesStart
  clock : t.clock = s.clock
  documents : t.shelf.documents = s.shelf.documents
  refuses : t.shelf.refuses = s.shelf.refuses

namespace Framed

theorem refl (s : Storage) : Framed s s := ⟨rfl, rfl, rfl, rfl, rfl, rfl, rfl⟩

theorem symm (h : Framed s t) : Framed t s :=
  ⟨h.root.symm, h.rootDegraded.symm, h.removed.symm, h.valuesStart.symm, h.clock.symm,
    h.documents.symm, h.refuses.symm⟩

theorem trans (h : Framed s t) (h' : Framed t u) : Framed s u :=
  ⟨h'.root.trans h.root, h'.rootDegraded.trans h.rootDegraded, h'.removed.trans h.removed,
    h'.valuesStart.trans h.valuesStart, h'.clock.trans h.clock, h'.documents.trans h.documents,
    h'.refuses.trans h.refuses⟩

theorem answer (h : Framed s t) (name : String) :
    (t.shelf.read name).1 = (s.shelf.read name).1 := by
  unfold Shelf.read Shelf.find?
  rw [h.refuses, h.documents]

theorem kept (h : Framed s t) (r : Root) (raw : List (String × Json)) :
    t.kept r raw = s.kept r raw := by
  unfold Storage.kept Store.isGone
  rw [h.clock, h.removed, h.rootDegraded]

theorem loadValues (hroot : s.store.root = some r) (chat : String) :
    Framed s (ended (Storage.loadValues chat) s).2 := by
  obtain ⟨held, granted, hrun⟩ := ended_loadValues_eq hroot chat
  rw [hrun]
  cases hu : s.store.usable? chat with
  | some vs =>
    rw [loaded_usable hu]
    exact ⟨rfl, rfl, rfl, rfl, rfl, rfl, rfl⟩
  | none =>
    obtain ⟨values, degraded, dirty, timer, hframe⟩ :=
      looked_frame s r chat (Store.valuesName s.store.valuesStart chat)
    rw [loaded_unusable hu, hframe]
    exact ⟨rfl, rfl, rfl, rfl, rfl, rfl, rfl⟩

end Framed

/-! ### What loading leaves in memory -/

/-- The chat is in memory with what it was served with, and other chats stay as they were. -/
theorem cached?_loaded (hroot : s.store.root = some r) (chat other : String) :
    (ended (loadValues chat) s).2.store.cached? other =
      if chat = other then some (s.serves r chat) else s.store.cached? other := by
  obtain ⟨held, granted, hrun⟩ := ended_loadValues_eq hroot chat
  rw [hrun, ← loaded_fst]
  change (s.loaded r chat).2.store.cached? other = _
  cases hu : s.store.usable? chat with
  | some vs =>
    rw [loaded_usable hu]
    split
    · next he =>
      rw [← he, ← Store.usable?_of_not_degraded (Store.not_degraded_of_usable hu), hu]
    · rfl
  | none =>
    rw [loaded_unusable hu]
    exact cached?_looked s r chat _ other

/-- A chat cannot be used afterwards if it could not be before, and its document is of no use. -/
theorem isDegraded_loaded (hroot : s.store.root = some r) (chat other : String) :
    (ended (loadValues chat) s).2.store.isDegraded other =
      if chat = other then (s.store.usable? chat).isNone &&
        (rawOf? (s.shelf.read (Store.valuesName s.store.valuesStart chat)).1).isNone
      else s.store.isDegraded other := by
  obtain ⟨held, granted, hrun⟩ := ended_loadValues_eq hroot chat
  rw [hrun]
  change (s.loaded r chat).2.store.isDegraded other = _
  cases hu : s.store.usable? chat with
  | some vs =>
    rw [loaded_usable hu]
    split
    · next he => exact he ▸ Store.not_degraded_of_usable hu
    · rfl
  | none =>
    rw [loaded_unusable hu, isDegraded_looked]
    rfl

/-- A value is changed in its place by another one of its kind. -/
def amended (vs : ChatValues) (id : String) (v : Value) : ChatValues :=
  if (Json.find? vs id).any (·.sameKind v) then Json.insert vs id v else vs

theorem amend_frame (s : Store) (id chat : String) (v : Value) :
    ∃ values, s.amend id chat v = { s with values := values } ∧
      ∀ other, (s.amend id chat v).cached? other =
        if chat = other then (s.cached? chat).map (amended · id v) else s.cached? other := by
  have hsame {x : Option ChatValues} (hx : s.cached? chat = x) (other : String) :
      s.cached? other = if chat = other then x else s.cached? other := by
    split
    · next he => exact he ▸ hx
    · rfl
  unfold Store.amend
  cases hc : s.cached? chat with
  | none => exact ⟨s.values, rfl, hsame hc⟩
  | some vs =>
    dsimp only [Option.map_some]
    unfold amended
    split
    · exact ⟨_, rfl, Store.cached?_setValues s chat _⟩
    · exact ⟨s.values, rfl, hsame hc⟩

theorem relabels_amended {vs ws : ChatValues} {v w : Value} (h : ChatValues.Relabels f g vs ws)
    (hv : Value.Relabels f g v w) (id : String) :
    ChatValues.Relabels f g (amended vs id v) (amended ws id w) := by
  have hkind : (Json.find? ws id).any (·.sameKind w) = (Json.find? vs id).any (·.sameKind v) := by
    rcases rel_cases (h.find? id) with ⟨hs, ht⟩ | ⟨u, u', hs, ht, hu⟩
    · rw [hs, ht]
      rfl
    · rw [hs, ht]
      exact hu.sameKind hv
  unfold amended
  rw [hkind]
  split
  · exact h.insert hv id
  · exact h

/-! ## Agreement -/

/-- With the root `r` in memory, two storages agree on all that is of use for the chat `c`, but for a
label in its values. -/
structure Agree (r : Root) (c f g : String) (s t : Storage) : Prop where
  root : s.store.root = some r
  framed : s.Framed t
  cached : Option.Rel (ChatValues.Relabels f g) (s.store.cached? c) (t.store.cached? c)
  degraded : t.store.isDegraded c = s.store.isDegraded c

namespace Agree

theorem right (h : Agree r c f g s t) : t.store.root = some r := h.framed.root.trans h.root

theorem refl (h : s.store.root = some r) : Agree r c f g s s where
  root := h
  framed := .refl s
  cached := by
    cases s.store.cached? c with
    | none => exact .none
    | some vs => exact .some (.refl vs)
  degraded := rfl

/-- Storages that agree but for a label agree altogether if that is the same label. -/
theorem cached_eq (h : Agree r c f f s t) : t.store.cached? c = s.store.cached? c := by
  rcases rel_cases h.cached with ⟨hs, ht⟩ | ⟨vs, ws, hs, ht, hvs⟩
  · rw [hs, ht]
  · rw [hs, ht, hvs.eq]

/-- Labels that stand for each other can be chosen anew as long as none does. -/
theorem relabel {f' g' : String} (h : Agree r c f f s t) : Agree r c f' g' s t :=
  ⟨h.root, h.framed, by rw [h.cached_eq]; exact (refl h.root).cached, h.degraded⟩

theorem symm (h : Agree r c f f s t) : Agree r c f f t s :=
  ⟨h.right, h.framed.symm, by rw [h.cached_eq]; exact (refl h.root).cached, h.degraded.symm⟩

theorem trans (h : Agree r c f f s t) (h' : Agree r c f f t u) : Agree r c f f s u :=
  ⟨h.root, h.framed.trans h'.framed, by rw [h'.cached_eq]; exact h.cached,
    h'.degraded.trans h.degraded⟩

/-- Both storages go on. -/
theorem go (h : Agree r c f g s t) (hs : s.Framed s') (ht : t.Framed t')
    (hcached : Option.Rel (ChatValues.Relabels f g) (s'.store.cached? c) (t'.store.cached? c))
    (hdegraded : t'.store.isDegraded c = s'.store.isDegraded c) : Agree r c f g s' t' :=
  ⟨hs.root.trans h.root, hs.symm.trans (h.framed.trans ht), hcached, hdegraded⟩

/-- The other storage goes on, and leaves the chat aside. -/
theorem aside (h : Agree r c f g s t) (ht : t.Framed t')
    (hcached : t'.store.cached? c = t.store.cached? c)
    (hdegraded : t'.store.isDegraded c = t.store.isDegraded c) : Agree r c f g s t' :=
  h.go (.refl s) ht (hcached ▸ h.cached) (hdegraded.trans h.degraded)

theorem usable (h : Agree r c f g s t) :
    Option.Rel (ChatValues.Relabels f g) (s.store.usable? c) (t.store.usable? c) := by
  unfold Store.usable?
  rw [h.degraded]
  split
  · exact .none
  · exact h.cached

theorem serves (h : Agree r c f g s t) : ChatValues.Relabels f g (s.serves r c) (t.serves r c) := by
  unfold Storage.serves
  rw [h.framed.valuesStart, h.framed.answer]
  rcases rel_cases h.usable with ⟨hs, ht⟩ | ⟨vs, ws, hs, ht, hvs⟩ <;> rw [hs, ht]
  · dsimp only
    split
    · rcases rel_cases h.cached with ⟨hs, ht⟩ | ⟨vs, ws, hs, ht, hvs⟩ <;> rw [hs, ht]
      · exact .nil
      · exact hvs
    · rw [h.framed.kept]
      exact .refl _
  · exact hvs

end Agree

end Storage

/-! ## The same chat -/

namespace Couples

open Storage

variable {r : Root} {c : String}

theorem load : Likewise (Agree r c f g) Storage.load := .ok fun s t h =>
  ⟨r, s, r, t, ended_load_some h.root, ended_load_some h.right, rfl, h⟩

theorem definitions : Likewise (Agree r c f g) Storage.definitions :=
  load.likewise fun _ => .pure rfl

theorem suites : Likewise (Agree r c f g) Storage.suites := load.likewise fun _ => .pure rfl

theorem settings : Likewise (Agree r c f g) Storage.settings := load.likewise fun _ => .pure rfl

theorem findSuite (id : String) : Likewise (Agree r c f g) (Suites.find? id) :=
  suites.likewise fun _ => .pure rfl

theorem definitionsOf (ids : List String) :
    Likewise (Agree r c f g) (Session.definitionsOf ids) := by
  induction ids with
  | nil => exact .pure rfl
  | cons id ids ih =>
    have hfind : Likewise (Agree r c f g) (Variables.find? id) :=
      definitions.likewise fun _ => .pure rfl
    exact hfind.likewise fun _ => ih.likewise fun _ => .pure rfl

theorem now : Likewise (Agree r c f g) (.ofAction Storage.now) := .ok fun s t h =>
  ⟨s.clock.now, s, t.clock.now, t, rfl, rfl, congrArg Clock.now h.framed.clock, h⟩

theorem loadValues : Couples (Agree r c f g) (Storage.loadValues c) (Storage.loadValues c)
    (ChatValues.Relabels f g) := .ok fun s t h => by
  refine ⟨s.serves r c, (ended (Storage.loadValues c) s).2, t.serves r c,
    (ended (Storage.loadValues c) t).2, Prod.ext (loadValues_answer h.root c) rfl,
    Prod.ext (loadValues_answer h.right c) rfl, h.serves, ?_⟩
  refine h.go (.loadValues h.root c) (.loadValues h.right c) ?_ ?_
  · rw [cached?_loaded h.root, cached?_loaded h.right, if_pos rfl, if_pos rfl]
    exact .some h.serves
  · have husable : (t.store.usable? c).isNone = (s.store.usable? c).isNone := by
      rcases rel_cases h.usable with ⟨hs, ht⟩ | ⟨vs, ws, hs, ht, -⟩
      · rw [hs, ht]
      · rw [hs, ht]
        rfl
    rw [isDegraded_loaded h.root, isDegraded_loaded h.right, if_pos rfl, if_pos rfl, husable,
      h.framed.valuesStart, h.framed.answer]

theorem warm : Likewise (Agree r c f g) (Variables.warm c) :=
  load.likewise fun _ => loadValues.bind fun _ _ _ => .pure rfl

theorem getValue (id : String) : Couples (Agree r c f g) (Storage.getValue id c)
    (Storage.getValue id c) (Option.Rel (Value.Relabels f g)) :=
  loadValues.bind fun _ _ h => .pure (h.find? id)

theorem stack (id : String) : Couples (Agree r c f g) (Variables.stack id c)
    (Variables.stack id c) (Stack.Relabels f g) := by
  refine (getValue id).bind fun v w h => ?_
  rcases rel_cases h with ⟨rfl, rfl⟩ | ⟨v, w, rfl, rfl, hvalue⟩
  · exact .pure ⟨.nil, rfl⟩
  · cases hvalue with
    | stack hstack => exact .pure hstack
    | slot _ => exact .pure ⟨.nil, rfl⟩

theorem slot (id : String) : Couples (Agree r c f g) (Variables.slot id c)
    (Variables.slot id c) (Slot.Relabels f g) := by
  refine (getValue id).bind fun v w h => ?_
  rcases rel_cases h with ⟨rfl, rfl⟩ | ⟨v, w, rfl, rfl, hvalue⟩
  · exact .pure ⟨.none, .nil, rfl⟩
  · cases hvalue with
    | stack _ => exact .pure ⟨.none, .nil, rfl⟩
    | slot hslot => exact .pure hslot

/-! ### Setting a value -/

theorem checkWritable : Likewise (Agree r c f g) (.ofAction (Storage.checkWritable c)) :=
  fun s t h => by
    rw [ended_ofAction, ended_ofAction, exec_checkWritable, exec_checkWritable, h.degraded]
    refine ⟨h, ?_⟩
    dsimp only
    cases s.store.isDegraded c with
    | true => exact rfl
    | false => exact rfl

theorem amend (id : String) {v w : Value} (hv : Value.Relabels f g v w) :
    Couples (Agree r c f g) (.ofAction (Storage.onStore (·.amend id c v)))
      (.ofAction (Storage.onStore (·.amend id c w))) fun _ _ => True := .ok fun s t h => by
  obtain ⟨values, hs, hcached⟩ := amend_frame s.store id c v
  obtain ⟨values', ht, hcached'⟩ := amend_frame t.store id c w
  refine ⟨(), { s with store := s.store.amend id c v }, (),
    { t with store := t.store.amend id c w }, rfl, rfl, trivial, h.go ?_ ?_ ?_ ?_⟩
  · rw [hs]
    exact ⟨rfl, rfl, rfl, rfl, rfl, rfl, rfl⟩
  · rw [ht]
    exact ⟨rfl, rfl, rfl, rfl, rfl, rfl, rfl⟩
  · dsimp only
    rw [hcached, hcached', if_pos rfl, if_pos rfl]
    rcases rel_cases h.cached with ⟨hs, ht⟩ | ⟨vs, ws, hs, ht, hvs⟩ <;> rw [hs, ht]
    · exact .none
    · exact .some (relabels_amended hvs hv id)
  · dsimp only
    rw [hs, ht]
    exact h.degraded

theorem setValue (id : String) {v w : Value} (hv : Value.Relabels f g v w) :
    Couples (Agree r c f g) (Storage.setValue id c v) (Storage.setValue id c w) fun _ _ => True := by
  refine checkWritable.likewise fun _ => loadValues.bind fun vs ws hvs => ?_
  refine checkWritable.likewise fun _ => .ok fun s t h => ?_
  refine ⟨(), s.stored c (Json.insert vs id v), (), t.stored c (Json.insert ws id w), rfl, rfl,
    trivial, h.go ⟨rfl, rfl, rfl, rfl, rfl, rfl, rfl⟩ ⟨rfl, rfl, rfl, rfl, rfl, rfl, rfl⟩ ?_
      h.degraded⟩
  have hs := (Store.cached?_setValues s.store c (Json.insert vs id v) c).trans (if_pos rfl)
  have ht := (Store.cached?_setValues t.store c (Json.insert ws id w) c).trans (if_pos rfl)
  change Option.Rel _ ((s.store.setValues c _).cached? c) ((t.store.setValues c _).cached? c)
  rw [hs, ht]
  exact .some (hvs.insert hv id)

theorem editValue (id : String) {v w : Value} (hv : Value.Relabels f g v w) :
    Couples (Agree r c f g) (Storage.editValue id c v) (Storage.editValue id c w) fun _ _ => True :=
  (amend id hv).bind fun _ _ _ => setValue id hv

/-- A content is stored twice, each time under its label. -/
theorem assignOne (hf : f ≠ "") (hg : g ≠ "") (p : Tagged) :
    Couples (Agree r c f g) (Session.assignOne c f p) (Session.assignOne c g p)
      fun a b => b = a := by
  have hfind : Likewise (Agree r c f g) (Variables.findByTag? p.tag) :=
    definitions.likewise fun _ => .pure rfl
  refine hfind.likewise fun d => ?_
  cases d with
  | none => exact .pure rfl
  | some d =>
    dsimp only
    cases d.mode with
    | stack =>
      have hadd : Couples (Agree r c f g) (Variables.addEntry d.id c p.content f)
          (Variables.addEntry d.id c p.content g) fun _ _ => True := by
        refine (stack d.id).bind fun s s' hs => now.likewise fun time => ?_
        refine (editValue d.id (.stack (hs.push p.content time))).bind fun _ _ _ => ?_
        exact .pure trivial
      exact hadd.bind fun _ _ _ => .pure rfl
    | replace =>
      have hput : Couples (Agree r c f g) (Variables.put d.id c p.content f)
          (Variables.put d.id c p.content g) fun _ _ => True := by
        refine (slot d.id).bind fun s s' hs => now.likewise fun time => ?_
        refine (editValue d.id (.slot (hs.put hf hg p.content time))).bind fun _ _ _ => ?_
        exact .pure trivial
      exact hput.bind fun _ _ _ => .pure rfl

end Couples

/-! ## Another chat -/

namespace Storage.Agree

variable {r : Root} {c d : String} {a : Storage}

/-- What is done to a storage leaves it agreeing with `a`. -/
abbrev Lasts (r : Root) (c f g : String) (a : Storage) (x : Activity Storage α) : Prop :=
  Meets (Agree r c f g a) (Agree r c f g a) x fun _ => Agree r c f g a

namespace Lasts

theorem load : Lasts r c f g a Storage.load :=
  .ok fun s h => ⟨r, s, ended_load_some h.right, h⟩

theorem definitions : Lasts r c f g a Storage.definitions := load.bind fun _ => .pure fun _ h => h

theorem now : Lasts r c f g a (.ofAction Storage.now) := .ok fun s h => ⟨_, s, rfl, h⟩

theorem checkWritable (chat : String) :
    Lasts r c f g a (.ofAction (Storage.checkWritable chat)) := Meets.iff_left.mpr fun s h => by
  rw [ended_ofAction, exec_checkWritable]
  exact h

variable (hne : d ≠ c)

include hne

theorem loadValues : Lasts r c f g a (Storage.loadValues d) := Meets.iff_left.mpr fun s h => by
  refine h.aside (.loadValues h.right d) ?_ ?_
  · rw [cached?_loaded h.right, if_neg hne]
  · rw [isDegraded_loaded h.right, if_neg hne]

theorem warm : Lasts r c f g a (Variables.warm d) :=
  load.bind fun _ => (loadValues hne).bind fun _ => .pure fun _ h => h

theorem getValue (id : String) : Lasts r c f g a (Storage.getValue id d) :=
  (loadValues hne).bind fun _ => .pure fun _ h => h

theorem editValue (id : String) (v : Value) : Lasts r c f g a (Storage.editValue id d v) := by
  have hamend : Lasts r c f g a (.ofAction (Storage.onStore (·.amend id d v))) :=
    .ok fun s h => by
      obtain ⟨values, hs, hcached⟩ := amend_frame s.store id d v
      refine ⟨(), { s with store := s.store.amend id d v }, rfl, h.aside ?_ ?_ ?_⟩
      · rw [hs]
        exact ⟨rfl, rfl, rfl, rfl, rfl, rfl, rfl⟩
      · exact (hcached c).trans (if_neg hne)
      · dsimp only
        rw [hs]
        rfl
  refine hamend.bind fun _ => (checkWritable d).bind fun _ => (loadValues hne).bind fun vs => ?_
  refine (checkWritable d).bind fun _ => .ok fun s h => ?_
  refine ⟨(), s.stored d (Json.insert vs id v), rfl, h.aside ⟨rfl, rfl, rfl, rfl, rfl, rfl, rfl⟩ ?_
    rfl⟩
  exact (Store.cached?_setValues s.store d _ c).trans (if_neg hne)

theorem assignOne (label : String) (p : Tagged) :
    Lasts r c f g a (Session.assignOne d label p) := by
  have hfind : Lasts r c f g a (Variables.findByTag? p.tag) :=
    definitions.bind fun _ => .pure fun _ h => h
  refine hfind.bind fun definition => ?_
  split
  · exact .pure fun _ h => h
  next definition =>
  have hold : Lasts r c f g a (Storage.getValue definition.id d) := getValue hne definition.id
  split
  · have hstack : Lasts r c f g a (Variables.stack definition.id d) := hold.bind fun v => by
      split <;> exact .pure fun _ h => h
    have hadd : Lasts r c f g a (Variables.addEntry definition.id d p.content label) :=
      hstack.bind fun _ => now.bind fun _ => (editValue hne _ _).bind fun _ => .pure fun _ h => h
    exact hadd.bind fun _ => .pure fun _ h => h
  · have hslot : Lasts r c f g a (Variables.slot definition.id d) := hold.bind fun v => by
      split <;> exact .pure fun _ h => h
    have hput : Lasts r c f g a (Variables.put definition.id d p.content label) :=
      hslot.bind fun _ => now.bind fun _ => (editValue hne _ _).bind fun _ => .pure fun _ h => h
    exact hput.bind fun _ => .pure fun _ h => h

end Lasts

end Storage.Agree

end TagLedger
