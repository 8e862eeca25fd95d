import TagLedger.Proofs.Synced

/-!
# Triples

What an activity does from start to end, if every wait is answered at once: from which states it
starts, what it gives and leaves, and that it leaves things settled also when it fails. Storages
whose documents can be told from memory are `Open` on a root.

    {P} x {Q}  →  (∀ a, {Q a} f a {R})  →  {P} x >>= f {R}          (Meets.bind)
-/

namespace TagLedger

/-! ## Triples -/

variable {σ α β ε : Type} {E P : σ → Prop} {Q : α → σ → Prop} {R : β → σ → Prop}

/-- Begun in a state as `P` says, `x` ends as `Q` says, or fails in a state as `E` says. -/
def Meets (E P : σ → Prop) (x : Activity σ α) (Q : α → σ → Prop) : Prop :=
  ∀ s, P s → match ended x s with
    | (.ok a, t) => Q a t
    | (.error _, t) => E t

namespace Meets

theorem ok {x : Activity σ α} (h : ∀ s, P s → ∃ a t, ended x s = (.ok a, t) ∧ Q a t) :
    Meets E P x Q := fun s hs => by
  obtain ⟨a, t, hrun, hq⟩ := h s hs
  rw [hrun]
  exact hq

theorem pure {a : α} (h : ∀ s, P s → Q a s) : Meets E P (pure a : Activity σ α) Q := h

theorem throw (e : Failure) (h : ∀ s, P s → E s) : Meets E P (throw e : Activity σ α) Q := h

theorem bind {x : Activity σ α} {f : α → Activity σ β} (hx : Meets E P x Q)
    (hf : ∀ a, Meets E (Q a) (f a) R) : Meets E P (x >>= f) R := fun s hs => by
  have hx := hx s hs
  rw [ended_bind]
  rcases hrun : ended x s with ⟨r, t⟩
  rw [hrun] at hx
  cases r with
  | ok a => exact hf a t hx
  | error e => exact hx

theorem mono {P' : σ → Prop} {Q' : α → σ → Prop} {x : Activity σ α} (h : Meets E P x Q)
    (hp : ∀ s, P' s → P s) (hq : ∀ a s, Q a s → Q' a s) : Meets E P' x Q' := fun s hs => by
  have hx := h s (hp s hs)
  rcases hrun : ended x s with ⟨r, t⟩
  rw [hrun] at hx
  cases r with
  | ok a => exact hq a t hx
  | error e => exact hx

/-- What is left does not depend on whether `x` fails. -/
theorem iff_left {x : Activity σ α} : Meets E P x (fun _ => E) ↔ ∀ s, P s → E (ended x s).2 := by
  refine forall₂_congr fun s _ => ?_
  rcases ended x s with ⟨r, t⟩
  cases r <;> exact Iff.rfl

/-- What never fails leaves no state to speak of when it fails. -/
theorem never {x : Activity σ α} (h : Meets (fun _ => False) P x Q) : Meets E P x Q :=
  fun s hs => by
    have hx := h s hs
    rcases hrun : ended x s with ⟨r, t⟩
    rw [hrun] at hx
    cases r with
    | ok a => exact hx
    | error e => exact hx.elim

theorem ite {c : Prop} [Decidable c] {x y : Activity σ α} (hx : Meets E P x Q)
    (hy : Meets E P y Q) : Meets E P (if c then x else y) Q := by
  split
  · exact hx
  · exact hy

/-- What holds whatever the state is can be assumed. -/
theorem assuming {A : Prop} {x : Activity σ α} (h : A → Meets E P x Q) :
    Meets E (fun s => A ∧ P s) x Q := fun s hs => h hs.1 s hs.2

/-- An activity that has to be done before goes on with the others. -/
theorem silent {x : Activity σ α} {P' : σ → Prop} (h : Meets E P x fun _ => P') :
    Meets E P x.silent fun _ => P' := h.bind fun _ => pure fun _ hs => hs

end Meets

/-! ## Open storages -/

/-- The storage serves the root `r`, and values of variables that `r` defines. -/
def Open (N : Naming) (r : Root) (s : Storage) : Prop :=
  ∃ values, Synced N r values [] s ∧ Defined r values

/-- The storage serves some root. -/
def Settled (N : Naming) (s : Storage) : Prop := ∃ r, Open N r s

variable {N : Naming} {r : Root} {chat : String}

theorem Open.settled {s : Storage} (h : Open N r s) : Settled N s := ⟨r, h⟩

/-- A triple that is about open storages. -/
abbrev Keeping (N : Naming) (r : Root) (x : Activity Storage α) (A : α → Prop) : Prop :=
  Meets (Settled N) (Open N r) x fun a s => A a ∧ Open N r s

/-- An operation leaves things settled. -/
abbrev Settles (N : Naming) (r : Root) (x : Activity Storage α) : Prop :=
  Meets (Settled N) (Open N r) x fun _ s => Settled N s

namespace Keeping

theorem pure {a : α} {A : α → Prop} (h : A a) :
    Keeping N r (pure a : Activity Storage α) A := fun _ hs => ⟨h, hs⟩

theorem bind {x : Activity Storage α} {f : α → Activity Storage β} {A : α → Prop} {B : β → Prop}
    (hx : Keeping N r x A) (hf : ∀ a, A a → Keeping N r (f a) B) : Keeping N r (x >>= f) B :=
  Meets.bind hx fun a => .assuming (hf a)

/-- What comes after something that keeps the root in place. -/
theorem thenSettles {x : Activity Storage α} {f : α → Activity Storage β} {A : α → Prop}
    (hx : Keeping N r x A) (hf : ∀ a, A a → Settles N r (f a)) : Settles N r (x >>= f) :=
  Meets.bind hx fun a => .assuming (hf a)

theorem settles {x : Activity Storage α} {A : α → Prop} (h : Keeping N r x A) : Settles N r x :=
  h.mono (fun _ hs => hs) fun _ _ hs => hs.2.settled

theorem now : Keeping N r (.ofAction Storage.now) fun _ => True :=
  .ok fun s hs => ⟨_, s, rfl, trivial, hs⟩

theorem newId (kind : String) (n : Nat) :
    Keeping N r (.ofAction (Storage.newId kind n)) fun _ => True :=
  .ok fun _ ⟨values, hs, hd⟩ => ⟨_, _, rfl, trivial, values, hs.quiet, hd⟩

theorem load : Keeping N r Storage.load fun a => a = r :=
  .ok fun s ⟨values, hs, hd⟩ => ⟨r, s, hs.load, rfl, values, hs, hd⟩

theorem suites : Keeping N r Storage.suites fun a => a = r.suites :=
  load.bind fun _ ha => .pure (congrArg Root.suites ha)

theorem definitions : Keeping N r Storage.definitions fun a => a = r.definitions :=
  load.bind fun _ ha => .pure (congrArg Root.definitions ha)

theorem settings : Keeping N r Storage.settings fun a => a = r.settings :=
  load.bind fun _ ha => .pure (congrArg Root.settings ha)

/-- Every variable that a loaded chat has a value of is defined. -/
theorem loadValues (hc : N.used chat) : Keeping N r (Storage.loadValues chat) fun vs =>
    ∀ id ∈ Json.keys vs, id ∈ Json.keys r.definitions :=
  .ok fun s ⟨values, hs, hd⟩ => by
    obtain ⟨values', t, hload, hsynced, hfind, hdefined⟩ := hs.loadValues hc
    have hvs := hdefined hd _ (Json.mem_of_find? hfind)
    exact ⟨_, t, hload, hvs, values', hsynced, hdefined hd⟩

theorem getValue (hc : N.used chat) (id : String) :
    Keeping N r (Storage.getValue id chat) fun v =>
      v.isSome = true → id ∈ Json.keys r.definitions :=
  (loadValues hc).bind fun _ hvs => .pure fun hv => hvs id (Json.find?_isSome.mp hv)

theorem setValue (hc : N.used chat) {id : String} (hid : id ∈ Json.keys r.definitions)
    (v : Value) : Keeping N r (Storage.setValue id chat v) fun _ => True :=
  .ok fun s ⟨values, hs, hd⟩ => by
    obtain ⟨values', t, hset, hsynced, hdefined⟩ := hs.setValue hd hc hid v
    exact ⟨(), t, hset, trivial, values', hsynced, hdefined⟩

theorem editValue (hc : N.used chat) {id : String} (hid : id ∈ Json.keys r.definitions)
    (v : Value) : Keeping N r (Storage.editValue id chat v) fun _ => True := fun s hs => by
  have hreadable : s.store.isDegraded chat = false := by
    obtain ⟨values, hsynced, -⟩ := hs
    exact hsynced.not_degraded chat
  have hsame : ended (Storage.editValue id chat v) s = ended (Storage.setValue id chat v) s :=
    congrArg Progress.finish (Storage.editValue_eq hreadable id v)
  rw [hsame]
  exact setValue hc hid v s hs

end Keeping

/-- The root is changed to another sound one that has all definitions. -/
theorem Meets.changeRoot {f : Root → Root} (hsound : r.Sound → (f r).Sound)
    (hdefined : Json.keys r.definitions ⊆ Json.keys (f r).definitions) :
    Meets (Settled N) (Open N r) (Storage.changeRoot f) fun _ s => Open N (f r) s :=
  .ok fun s ⟨values, hs, hd⟩ => by
    have hcontents : Contents N (f r) values :=
      { hs.contents with sound := hsound hs.contents.sound }
    obtain ⟨t, ht, hsynced⟩ := hs.changeRoot f hcontents
    exact ⟨(), t, ht, values, hsynced, fun c hc id hid => hdefined (hd c hc id hid)⟩

end TagLedger
