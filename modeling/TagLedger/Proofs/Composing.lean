import TagLedger.Proofs.Arranging
import TagLedger.Proofs.Defining

/-!
# How suites are composed

With the root in memory, an operation on suites does not wait. What it makes of the root is said once
for each: a suite is put in, taken out or edited, its items are added to, edited, dropped or put in
another order, the slots of a variable leave every suite, or another suite becomes active. If the
operation is refused or fails, the root stays as it is.

    op.perform s ends at once, with a root r' where SuiteStep now r op r' or r' = r     (does_perform)
    the items of a suite in r' are none, those of one in r, or made of them  (SuiteStep.items_after)
-/

namespace TagLedger

open Schema (Context)

variable {α β : Type} {r r' : Root} {now : Int}

/-! ## What is done at once -/

section AtOnce

variable {σ : Type} {E P : σ → Prop} {Q : α → σ → Prop} {R : β → σ → Prop}

/-- Begun in a state as `P` says, `x` ends without a wait, as `Q` says, or fails in a state as `E`
says. -/
def AtOnce (E P : σ → Prop) (x : Activity σ α) (Q : α → σ → Prop) : Prop :=
  ∀ s, P s → (∃ a t, x s = .done t (.ok a) ∧ Q a t) ∨ ∃ e t, x s = .done t (.error e) ∧ E t

namespace AtOnce

theorem pure {a : α} (h : ∀ s, P s → Q a s) : AtOnce E P (pure a : Activity σ α) Q :=
  fun s hs => .inl ⟨a, s, rfl, h s hs⟩

theorem throw (e : Failure) (h : ∀ s, P s → E s) : AtOnce E P (throw e : Activity σ α) Q :=
  fun s hs => .inr ⟨e, s, rfl, h s hs⟩

theorem bind {x : Activity σ α} {f : α → Activity σ β} (hx : AtOnce E P x Q)
    (hf : ∀ a, AtOnce E (Q a) (f a) R) : AtOnce E P (x >>= f) R := fun s hs => by
  change (∃ a t, (x s).bind f = _ ∧ _) ∨ ∃ e t, (x s).bind f = _ ∧ _
  rcases hx s hs with ⟨a, t, hrun, hq⟩ | ⟨e, t, hrun, he⟩
  · rw [hrun]
    exact hf a t hq
  · rw [hrun]
    exact .inr ⟨e, t, rfl, he⟩

theorem mono {P' : σ → Prop} {Q' : α → σ → Prop} {x : Activity σ α} (h : AtOnce E P x Q)
    (hp : ∀ s, P' s → P s) (hq : ∀ a s, Q a s → Q' a s) : AtOnce E P' x Q' := fun s hs =>
  (h s (hp s hs)).imp_left fun ⟨a, t, hrun, h⟩ => ⟨a, t, hrun, hq a t h⟩

theorem weaken {E' : σ → Prop} {x : Activity σ α} (h : AtOnce E P x fun _ => E)
    (he : ∀ s, E s → E' s) : AtOnce E' P x fun _ => E' := fun s hs =>
  (h s hs).imp (fun ⟨a, t, hrun, ht⟩ => ⟨a, t, hrun, he t ht⟩)
    fun ⟨e, t, hrun, ht⟩ => ⟨e, t, hrun, he t ht⟩

theorem ite {c : Prop} [Decidable c] {x y : Activity σ α} (hx : c → AtOnce E P x Q)
    (hy : ¬ c → AtOnce E P y Q) : AtOnce E P (if c then x else y) Q := by
  split
  · next h => exact hx h
  · next h => exact hy h

theorem assuming {A : Prop} {x : Activity σ α} (h : A → AtOnce E P x Q) :
    AtOnce E (fun s => A ∧ P s) x Q := fun s hs => h hs.1 s hs.2

theorem silent {x : Activity σ α} {P' : σ → Prop} (h : AtOnce E P x fun _ => P') :
    AtOnce E P x.silent fun _ => P' := h.bind fun _ => pure fun _ hs => hs

theorem tryCatch {E' : σ → Prop} {x : Activity σ α} {handle : Failure → Activity σ α}
    (hx : AtOnce E' P x Q) (hhandle : ∀ e, AtOnce E E' (handle e) Q) :
    AtOnce E P (tryCatch x handle) Q := fun s hs => by
  change (∃ a t, (x s).attempt _ = _ ∧ _) ∨ ∃ e t, (x s).attempt _ = _ ∧ _
  rcases hx s hs with ⟨a, t, hrun, hq⟩ | ⟨e, t, hrun, he⟩
  · rw [hrun]
    exact .inl ⟨a, t, rfl, hq⟩
  · rw [hrun]
    exact hhandle e t he

/-- What an activity leaves that does not wait. -/
theorem ended {x : Activity σ α} (h : AtOnce E P x fun _ => E) {s : σ} (hs : P s) :
    E (ended x s).2 := by
  unfold TagLedger.ended
  rcases h s hs with ⟨a, t, hrun, he⟩ | ⟨e, t, hrun, he⟩
  · rw [hrun]
    exact he
  · rw [hrun]
    exact he

end AtOnce

end AtOnce

/-- The root is in memory, and this is the time. -/
structure Storage.Has (r : Root) (now : Int) (s : Storage) : Prop where
  root : s.store.root = some r
  now : s.clock.now = now

/-- Something leaves the root in place, and gives what `A` says. -/
abbrev Learns (E : Storage → Prop) (r : Root) (now : Int) (x : Activity Storage α)
    (A : α → Prop) : Prop :=
  AtOnce E (Storage.Has r now) x fun a s => A a ∧ s.Has r now

/-- With this root in memory, something ends at once and leaves things as `E` says. -/
abbrev Leaves (E : Storage → Prop) (r : Root) (now : Int) (x : Activity Storage α) : Prop :=
  AtOnce E (Storage.Has r now) x fun _ => E

variable {E : Storage → Prop}

namespace Learns

theorem pure {a : α} {A : α → Prop} (h : A a) :
    Learns E r now (pure a : Activity Storage α) A := AtOnce.pure fun _ hs => ⟨h, hs⟩

theorem bind {x : Activity Storage α} {f : α → Activity Storage β} {A : α → Prop} {B : β → Prop}
    (hx : Learns E r now x A) (hf : ∀ a, A a → Learns E r now (f a) B) :
    Learns E r now (x >>= f) B := AtOnce.bind hx fun a => .assuming (hf a)

theorem thenLeaves {x : Activity Storage α} {f : α → Activity Storage β} {A : α → Prop}
    (hx : Learns E r now x A) (hf : ∀ a, A a → Leaves E r now (f a)) :
    Leaves E r now (x >>= f) := AtOnce.bind hx fun a => .assuming (hf a)

theorem load : Learns E r now Storage.load fun a => a = r :=
  fun s hs => .inl ⟨r, s, Storage.load_some hs.root, rfl, hs⟩

theorem suites : Learns E r now Storage.suites fun a => a = r.suites :=
  load.bind fun _ ha => .pure (congrArg Root.suites ha)

theorem settings : Learns E r now Storage.settings fun a => a = r.settings :=
  load.bind fun _ ha => .pure (congrArg Root.settings ha)

theorem find (id : String) :
    Learns E r now (Suites.find? id) fun s => s = Json.find? r.suites id :=
  suites.bind fun _ hs => .pure (by rw [hs])

theorem newId (kind : String) (n : Nat) :
    Learns E r now (.ofAction (Storage.newId kind n)) fun _ => True :=
  fun _ hs => .inl ⟨_, _, rfl, trivial, { hs with }⟩

theorem time : Learns E r now (.ofAction Storage.now) fun a => a = now :=
  fun s hs => .inl ⟨_, s, rfl, hs.now, hs⟩

theorem context : Learns E r now (.ofAction Storage.context) fun a => a = ⟨now, false⟩ :=
  fun s hs => .inl ⟨_, s, rfl, congrArg (Context.mk · false) hs.now, hs⟩

/-- What fits is given, and what does not leaves the root in place. -/
theorem valid (c : Schema.Checked α) (hsame : ∀ s, Storage.Has r now s → E s) :
    Learns E r now (Suites.valid c) fun a => c = .valid a := by
  cases c with
  | valid a => exact .pure rfl
  | invalid is => exact .throw _ hsame

end Learns

/-- The root is changed. -/
theorem AtOnce.changeRoot (f : Root → Root) : AtOnce E (Storage.Has r now) (Storage.changeRoot f)
    fun _ => Storage.Has (f r) now := fun s hs => by
  refine .inl ⟨(), { s with store := { s.store with
    root := some (f (s.store.root.getD r)), rootDirty := true
    rootTimer := some (s.clock.elapsed + s.store.debounce) } }, ?_, ?_, hs.now⟩
  · change (Storage.load s).bind _ = _
    rw [Storage.load_some hs.root]
    rfl
  · rw [hs.root, Option.getD_some]

namespace Leaves

theorem pure {a : α} (h : ∀ s, Storage.Has r now s → E s) :
    Leaves E r now (pure a : Activity Storage α) := AtOnce.pure h

/-- The root is changed, and then something else is done. -/
theorem change {f : Root → Root} {x : Unit → Activity Storage α} (h : Leaves E (f r) now (x ())) :
    Leaves E r now (Storage.changeRoot f >>= x) := (AtOnce.changeRoot f).bind fun _ => h

theorem changing {f : Root → Root} (h : ∀ s, Storage.Has (f r) now s → E s) :
    Leaves E r now (Storage.changeRoot f) := (AtOnce.changeRoot f).mono (fun _ hs => hs) fun _ => h

/-- Something that changes the root, and then an answer. -/
theorem thenPure {x : Activity Storage α} (hx : Leaves E r now x) (f : α → β) :
    Leaves E r now (x >>= fun a => Pure.pure (f a)) := AtOnce.bind hx fun _ => .pure fun _ hs => hs

end Leaves

/-! ## What operations on suites do -/

namespace Suites

/-- A suite under this identifier has these items from now on. -/
def withItems (suites : List (String × Suite)) (id : String) (items : List Item) (now : Int) :
    List (String × Suite) :=
  suites.map fun s => if s.1 == id then (s.1, { s.2 with items := items, updatedAt := now }) else s

/-- What an operation puts into a suite, and where, if the suite can have it. -/
inductive Adds (s : Suite) : SuiteOperation → Item → Option Int → Prop where
  | prompt (id itemId content name : String) (place : Option Int) :
      Adds s (.addPrompt id content name place) (.prompt ⟨itemId, name, content, true⟩) place
  | slot (id : String) {variableId : String} (place : Option Int)
      (hnew : hasSlot variableId s = false) :
      Adds s (.addSlot id variableId place) (.variable ⟨variableId, true⟩) place
  | chat (id itemId name : String) (range : Option RangeRule) (excludeUser : Bool)
      (scripts : Option ScriptSet) (place : Option Int) :
      Adds s (.addChat id name range excludeUser scripts place)
        (.chat ⟨itemId, name, true, range.getD .standard, excludeUser, scripts.getD .empty⟩) place
  | character (id itemId characterId label shown : String) {part : CharacterPart}
      {entryUid : Option Int}
      (hnew : hasCharacterPart s characterId part.text entryUid = false) :
      Adds s (.addCharacter id characterId part.text label entryUid)
        (.character ⟨itemId, characterId, part, shown, entryUid, true⟩) none

/-- What an operation makes of the items of the suite that it is about. -/
inductive ItemStep (now : Int) (s : Suite) : SuiteOperation → List Item → Prop where
  | added {op : SuiteOperation} {item : Item} {place : Option Int} (hadds : Adds s op item place) :
      ItemStep now s op (insertAt s.items item place)
  | edited (id : String) {itemId : String} {updates : List (String × Json)} {old new : Item}
      (hold : s.find? itemId = some old) (hnew : editItem old updates ⟨now, false⟩ = .valid new) :
      ItemStep now s (.updateItem id itemId updates) (replaceItem itemId new s.items)
  | removed (id : String) {itemId : String} {old : Item} (hold : s.find? itemId = some old) :
      ItemStep now s (.removeItem id itemId) (s.items.eraseP fun i => i.id == itemId)
  | ordered (id : String) {ids : List String}
      (hall : (itemsInOrder s ids).length = s.items.length) :
      ItemStep now s (.reorderItems id ids) (itemsInOrder s ids)

end Suites

open Suites in
/-- The suite that an operation on items is about. -/
def SuiteOperation.suite? : SuiteOperation → Option String
  | .addPrompt id _ _ _ | .addSlot id _ _ | .addChat id _ _ _ _ _ | .addCharacter id _ _ _ _
  | .updateItem id _ _ | .removeItem id _ | .reorderItems id _ => some id
  | _ => none

/-- The root with another suite active. -/
def Root.activating (r : Root) (id : Option String) : Root :=
  { r with settings := { r.settings with activeSuite := id } }

open Suites in
/-- What an operation on suites makes of the root. -/
inductive SuiteStep (now : Int) (r : Root) : SuiteOperation → Root → Prop where
  | active (id : Option String) : SuiteStep now r (.setActive id) (r.activating id)
  | activated {id : String} {s : Suite} (hs : Json.find? r.suites id = some s) :
      SuiteStep now r (.activate id) (r.activating (some id))
  | created (id title : String) (name : Option String) (enabled : Bool) (trigger : Option Trigger)
      (useSnapshot : Option Bool) {suites : List (String × Suite)} {new : Root}
      (hsuites : suites = Json.insert r.suites id
        ⟨id, title, enabled, trigger.getD .manual, [], useSnapshot, now, now⟩)
      (hnew : new = if suites.length = 1
        then Root.activating { r with suites := suites } (some id) else { r with suites := suites }) :
      SuiteStep now r (.create name enabled trigger useSnapshot) new
  | deleted {id : String} {s : Suite} {suites : List (String × Suite)} {new : Root}
      (hs : Json.find? r.suites id = some s) (hsuites : suites = r.suites.filter (·.1 != id))
      (hnew : new = if r.settings.activeSuite = some id
        then Root.activating { r with suites := suites } (suites.head?.map (·.1))
        else { r with suites := suites }) :
      SuiteStep now r (.delete id) new
  | updated {id : String} {updates : List (String × Json)} {old new : Suite}
      (hold : Json.find? r.suites id = some old)
      (hnew : edit old updates ⟨now, false⟩ = .valid new) :
      SuiteStep now r (.update id updates) { r with suites := Json.insert r.suites id new }
  | items {op : SuiteOperation} {id : String} {s : Suite} {items : List Item}
      (hop : op.suite? = some id) (hs : Json.find? r.suites id = some s)
      (hitems : ItemStep now s op items) :
      SuiteStep now r op { r with suites := withItems r.suites id items now }
  | unslotted (variableId : String) : SuiteStep now r (.removeSlots variableId)
      { r with suites := r.suites.map fun s => (s.1, withoutSlots variableId now s.2) }

/-- The root in memory is what an operation on suites makes of `r`, or still `r`. -/
def Storage.Composed (r : Root) (now : Int) (op : SuiteOperation) (s : Storage) : Prop :=
  ∃ r', (r' = r ∨ SuiteStep now r op r') ∧ s.Has r' now

/-- An operation on suites does at once what one of the steps says. -/
abbrev Composes (r : Root) (now : Int) (op : SuiteOperation) (x : Activity Storage α) : Prop :=
  Leaves (Storage.Composed r now op) r now x

namespace Composes

open Suites

variable {op : SuiteOperation}

theorem same {s : Storage} (h : s.Has r now) : s.Composed r now op := ⟨r, .inl rfl, h⟩

theorem step {s : Storage} (hstep : SuiteStep now r op r') (h : s.Has r' now) :
    s.Composed r now op := ⟨r', .inr hstep, h⟩

theorem pure (a : α) : Composes r now op (pure a : Activity Storage α) :=
  Leaves.pure fun _ => same

theorem reads {x : Activity Storage α} {A : α → Prop}
    (h : Learns (Storage.Composed r now op) r now x A) : Composes r now op x :=
  h.mono (fun _ hs => hs) fun _ _ hs => same hs.2

theorem leaves_setActive {E : Storage → Prop} {id : Option String}
    (h : ∀ s, Storage.Has (r.activating id) now s → E s) : Leaves E r now (setActive id) := by
  unfold setActive
  refine Learns.settings.thenLeaves ?_
  rintro _ rfl
  exact .changing h

theorem active : Composes r now op active := by
  unfold Suites.active
  refine Learns.settings.thenLeaves fun x _ => ?_
  split
  · exact .ite (fun _ => pure _) fun _ => reads (.find _)
  · exact pure _

theorem setActive (id : Option String) : Composes r now (.setActive id) (setActive id) :=
  leaves_setActive fun _ => step (.active id)

theorem activate (id : String) : Composes r now (.activate id) (activate id) := by
  unfold Suites.activate
  refine (Learns.find id).thenLeaves ?_
  rintro _ rfl
  split
  · exact pure _
  · next s hs => exact (leaves_setActive fun _ => step (.activated hs)).thenPure _

theorem create (name : Option String) (enabled : Bool) (trigger : Option Trigger)
    (useSnapshot : Option Bool) : Composes r now (.create name enabled trigger useSnapshot)
      (create name enabled trigger useSnapshot) := by
  unfold Suites.create
  refine Learns.suites.thenLeaves ?_
  rintro _ rfl
  refine (Learns.newId "suite" 5).thenLeaves fun id _ => ?_
  refine Learns.time.thenLeaves ?_
  rintro now rfl
  refine .change (.ite (fun hfirst => ?_) fun hnext => .pure fun _ => ?_)
  · refine (leaves_setActive fun _ => ?_).thenPure _
    exact step (.created id _ name enabled trigger useSnapshot rfl (if_pos hfirst).symm)
  · exact step (.created id _ name enabled trigger useSnapshot rfl (if_neg hnext).symm)

theorem delete (id : String) : Composes r now (.delete id) (delete id) := by
  unfold Suites.delete
  refine Learns.suites.thenLeaves ?_
  rintro _ rfl
  split
  · exact pure _
  next s hs =>
  refine .change (Learns.settings.thenLeaves ?_)
  rintro _ rfl
  refine .ite (fun hactive => ?_) fun hother => .pure fun _ => ?_
  · refine (leaves_setActive fun _ => ?_).thenPure _
    exact step (.deleted hs rfl (if_pos hactive).symm)
  · exact step (.deleted hs rfl (if_neg hother).symm)

theorem update (id : String) (updates : List (String × Json)) :
    Composes r now (.update id updates) (update id updates) := by
  unfold Suites.update
  refine Learns.suites.thenLeaves ?_
  rintro _ rfl
  split
  · exact pure _
  next s hs =>
  refine Learns.context.thenLeaves ?_
  rintro _ rfl
  refine (Learns.valid _ fun _ => same).thenLeaves fun new hnew => ?_
  exact .change (.pure fun _ => step (.updated hs hnew))

theorem leaves_setItems {E : Storage → Prop} {id : String} {items : List Item}
    (h : ∀ s, Storage.Has { r with suites := withItems r.suites id items now } now s → E s) :
    Leaves E r now (setItems id items) := by
  unfold Suites.setItems
  refine Learns.suites.thenLeaves ?_
  rintro _ rfl
  refine Learns.time.thenLeaves ?_
  rintro _ rfl
  exact .changing (f := fun r => { r with suites := _ }) h

theorem setItems {id : String} {items : List Item} {s : Suite} (hop : op.suite? = some id)
    (hs : Json.find? r.suites id = some s) (hitems : ItemStep now s op items) :
    Composes r now op (setItems id items) :=
  leaves_setItems fun _ => step (.items hop hs hitems)

theorem addItem {id : String} {place : Option Int} {make : Suite → Activity Storage (Option Item)}
    (hop : op.suite? = some id) (hmake : ∀ s, Learns (Storage.Composed r now op) r now (make s)
      fun i => ∀ item, i = some item → Adds s op item place) :
    Composes r now op (addItem id place make) := by
  unfold Suites.addItem
  refine (Learns.find id).thenLeaves ?_
  rintro _ rfl
  split
  · exact pure _
  next s hs =>
  refine (hmake s).thenLeaves fun i hi => ?_
  split
  · exact pure _
  · exact Leaves.thenPure (setItems hop hs (.added (hi _ rfl))) _

theorem addPrompt (id content name : String) (place : Option Int) :
    Composes r now (.addPrompt id content name place) (addPrompt id content name place) :=
  addItem rfl fun _ => (Learns.newId "item" 5).bind fun itemId _ => .pure fun item hitem => by
    cases hitem
    exact .prompt id itemId content name place

theorem addSlot (id variableId : String) (place : Option Int) :
    Composes r now (.addSlot id variableId place) (addSlot id variableId place) :=
  addItem rfl fun s => by
    refine .ite (fun _ => Learns.pure fun item hitem => by cases hitem) fun hnew => ?_
    refine Learns.pure fun item hitem => ?_
    cases hitem
    exact .slot id place (Bool.eq_false_iff.mpr hnew)

theorem addChat (id name : String) (range : Option RangeRule) (excludeUser : Bool)
    (scripts : Option ScriptSet) (place : Option Int) :
    Composes r now (.addChat id name range excludeUser scripts place)
      (addChat id name range excludeUser scripts place) :=
  addItem rfl fun _ => (Learns.newId "item" 5).bind fun itemId _ => .pure fun item hitem => by
    cases hitem
    exact .chat id itemId name range excludeUser scripts place

theorem oneOf_part {ctx : Context} {text : String} {part : CharacterPart}
    (h : (Schema.oneOf CharacterPart.named ctx (.str text)).below (.key "sub_type") =
      .valid part) : part.text = text := by
  have hnamed : Schema.Yields (fun part => part.text = text)
      (Schema.oneOf CharacterPart.named ctx (.str text)) := fun part hpart => by
    unfold Schema.oneOf at hpart
    dsimp only at hpart
    split at hpart
    · next found hfound =>
      cases hpart
      have hmem := Json.mem_of_find? hfound
      simp only [CharacterPart.named, List.mem_cons, Prod.mk.injEq, List.not_mem_nil,
        or_false] at hmem
      rcases hmem with ⟨rfl, rfl⟩ | ⟨rfl, rfl⟩ | ⟨rfl, rfl⟩ | ⟨rfl, rfl⟩ <;> rfl
    · cases hpart
  exact Schema.yields_below hnamed part h

theorem addCharacter (id characterId text label : String) (entryUid : Option Int) :
    Composes r now (.addCharacter id characterId text label entryUid)
      (addCharacter id characterId text label entryUid) :=
  addItem rfl fun s => by
    refine .ite (fun _ => Learns.pure fun item hitem => by cases hitem) fun hnew => ?_
    refine (Learns.newId "item" 5).bind fun itemId _ => ?_
    refine Learns.context.bind fun ctx _ => ?_
    refine (Learns.valid _ fun _ => same).bind fun part hpart => .pure fun item hitem => ?_
    cases hitem
    obtain rfl := oneOf_part hpart
    exact .character id itemId characterId label _ (Bool.eq_false_iff.mpr hnew)

theorem updateItem (id itemId : String) (updates : List (String × Json)) :
    Composes r now (.updateItem id itemId updates) (updateItem id itemId updates) := by
  unfold Suites.updateItem
  refine (Learns.find id).thenLeaves ?_
  rintro _ rfl
  split
  · exact pure _
  next s hs =>
  split
  · exact pure _
  next item hitem =>
  refine Learns.context.thenLeaves ?_
  rintro _ rfl
  refine (Learns.valid _ fun _ => same).thenLeaves fun new hnew => ?_
  exact Leaves.thenPure (setItems rfl hs (.edited id hitem hnew)) _

theorem removeItem (id itemId : String) :
    Composes r now (.removeItem id itemId) (removeItem id itemId) := by
  unfold Suites.removeItem
  refine (Learns.find id).thenLeaves ?_
  rintro _ rfl
  split
  · exact pure _
  next s hs =>
  split
  · exact pure _
  next item hitem => exact Leaves.thenPure (setItems rfl hs (.removed id hitem)) _

theorem reorderItems (id : String) (ids : List String) :
    Composes r now (.reorderItems id ids) (reorderItems id ids) := by
  unfold Suites.reorderItems
  refine (Learns.find id).thenLeaves ?_
  rintro _ rfl
  split
  · exact pure _
  next s hs =>
  refine .ite (fun _ => pure _) fun hall => ?_
  exact Leaves.thenPure (setItems rfl hs (.ordered id (not_not.mp hall))) _

theorem removeSlots (variableId : String) :
    Composes r now (.removeSlots variableId) (removeSlots variableId) := by
  unfold Suites.removeSlots
  refine Learns.suites.thenLeaves ?_
  rintro _ rfl
  refine .ite (fun _ => ?_) fun _ => pure _
  refine Learns.time.thenLeaves ?_
  rintro _ rfl
  exact .change (.pure fun _ => step (.unslotted variableId))

theorem perform (op : SuiteOperation) : Composes r now op op.perform := by
  cases op with
  | list => exact (Leaves.thenPure (reads Learns.suites) _).silent
  | find id => exact (reads (Learns.find id)).silent
  | active => exact active.silent
  | setActive id => exact setActive id
  | activate id => exact (activate id).silent
  | create name enabled trigger useSnapshot => exact (create name enabled trigger useSnapshot).silent
  | delete id => exact (delete id).silent
  | update id updates => exact (update id updates).silent
  | addPrompt id content name place => exact (addPrompt id content name place).silent
  | addSlot id variableId place => exact (addSlot id variableId place).silent
  | addChat id name range excludeUser scripts place =>
    exact (addChat id name range excludeUser scripts place).silent
  | addCharacter id characterId part label entryUid =>
    exact (addCharacter id characterId part label entryUid).silent
  | updateItem id itemId updates => exact (updateItem id itemId updates).silent
  | removeItem id itemId => exact (removeItem id itemId).silent
  | reorderItems id ids => exact (reorderItems id ids).silent
  | removeSlots variableId => exact (removeSlots variableId).silent
  | enabledVariables id | visibleItems id =>
    exact (Leaves.thenPure (reads (Learns.find id)) _).silent

end Composes

namespace Leaves

open Suites

/-- An update that fits is taken over. -/
theorem update {id : String} {updates : List (String × Json)} {old new : Suite}
    (hold : Json.find? r.suites id = some old)
    (hnew : edit old updates ⟨now, false⟩ = .valid new) :
    Leaves (Storage.Has { r with suites := Json.insert r.suites id new } now) r now
      (Suites.update id updates) := by
  unfold Suites.update
  refine Learns.suites.thenLeaves ?_
  rintro _ rfl
  rw [hold]
  refine Learns.context.thenLeaves ?_
  rintro _ rfl
  rw [hnew]
  exact .change (.pure fun _ hs => hs)

/-- New values of an item that fit are taken over. -/
theorem updateItem {id itemId : String} {updates : List (String × Json)} {s : Suite}
    {old new : Item} (hs : Json.find? r.suites id = some s) (hold : s.find? itemId = some old)
    (hnew : editItem old updates ⟨now, false⟩ = .valid new) :
    Leaves (Storage.Has { r with
      suites := withItems r.suites id (replaceItem itemId new s.items) now } now) r now
      (Suites.updateItem id itemId updates) := by
  unfold Suites.updateItem
  refine (Learns.find id).thenLeaves ?_
  rintro _ rfl
  simp only [hs, hold]
  refine Learns.context.thenLeaves ?_
  rintro _ rfl
  rw [hnew]
  exact thenPure (Composes.leaves_setItems fun _ hs => hs) _

end Leaves

/-! ## Items after a step -/

open Suites in
/-- Items that a suite can have after an operation: none, those of a suite before, or what the
operation makes of them. -/
inductive ItemsAfter (now : Int) (r : Root) : SuiteOperation → List Item → Prop where
  | none (op : SuiteOperation) : ItemsAfter now r op []
  | kept (op : SuiteOperation) {x : String × Suite} (hx : x ∈ r.suites) :
      ItemsAfter now r op x.2.items
  | unslotted (variableId : String) {x : String × Suite} (hx : x ∈ r.suites) :
      ItemsAfter now r (.removeSlots variableId) (x.2.items.filter fun i => !i.isSlotFor variableId)
  | given {id : String} {updates : List (String × Json)} {old new : Suite}
      (hold : Json.find? r.suites id = some old)
      (hnew : edit old updates ⟨now, false⟩ = .valid new) :
      ItemsAfter now r (.update id updates) new.items
  | made {op : SuiteOperation} {id : String} {s : Suite} {items : List Item}
      (hop : op.suite? = some id) (hs : Json.find? r.suites id = some s)
      (hitems : ItemStep now s op items) :
      ItemsAfter now r op items

theorem Suites.items_withoutSlots (variableId : String) (now : Int) (s : Suite) :
    (withoutSlots variableId now s).items = s.items ∨
      (withoutSlots variableId now s).items = s.items.filter fun i => !i.isSlotFor variableId := by
  unfold withoutSlots
  dsimp only
  split
  · exact .inl rfl
  · exact .inr rfl

theorem SuiteStep.items_after {op : SuiteOperation} (h : SuiteStep now r op r')
    {x : String × Suite} (hx : x ∈ r'.suites) : ItemsAfter now r op x.2.items := by
  cases h with
  | active id => exact .kept _ hx
  | activated hs => exact .kept _ hx
  | @created id title name enabled trigger useSnapshot suites new hsuites hnew =>
    have hsame : r'.suites = suites := by
      rw [hnew]
      split <;> rfl
    rw [hsame, hsuites] at hx
    rcases Json.mem_insert hx with rfl | hx
    · exact .none _
    · exact .kept _ hx
  | @deleted id s suites new hs hsuites hnew =>
    have hsame : r'.suites = suites := by
      rw [hnew]
      split <;> rfl
    rw [hsame, hsuites] at hx
    exact .kept _ (List.mem_of_mem_filter hx)
  | updated hold hnew =>
    rcases Json.mem_insert hx with rfl | hx
    · exact .given hold hnew
    · exact .kept _ hx
  | items hop hs hitems =>
    obtain ⟨y, hy, rfl⟩ := List.mem_map.mp hx
    dsimp only
    split
    · exact .made hop hs hitems
    · exact .kept _ hy
  | unslotted variableId =>
    obtain ⟨y, hy, rfl⟩ := List.mem_map.mp hx
    rcases Suites.items_withoutSlots variableId now y.2 with hsame | hless
    · exact hsame ▸ .kept _ hy
    · exact hless ▸ .unslotted variableId hy

open Suites in
/-- An operation brings an item in: it stands among the items that a suite is given, it is added, or
it is what becomes of another one. -/
inductive Brings (now : Int) (r : Root) : SuiteOperation → Item → Prop where
  | given {id : String} {updates : List (String × Json)} {old new : Suite} {i : Item}
      (hold : Json.find? r.suites id = some old)
      (hnew : edit old updates ⟨now, false⟩ = .valid new) (hi : i ∈ new.items) :
      Brings now r (.update id updates) i
  | added {op : SuiteOperation} {s : Suite} {item : Item} {place : Option Int}
      (hadds : Adds s op item place) : Brings now r op item
  | edited {id itemId : String} {updates : List (String × Json)} {s : Suite} {old new : Item}
      (hs : Json.find? r.suites id = some s) (hold : s.find? itemId = some old)
      (hnew : editItem old updates ⟨now, false⟩ = .valid new) :
      Brings now r (.updateItem id itemId updates) new

/-- An item was there before the operation, or is brought in by it. -/
theorem ItemsAfter.mem {op : SuiteOperation} {items : List Item} (h : ItemsAfter now r op items)
    {i : Item} (hi : i ∈ items) : (∃ x ∈ r.suites, i ∈ x.2.items) ∨ Brings now r op i := by
  cases h with
  | none => cases hi
  | kept _ hx => exact .inl ⟨_, hx, hi⟩
  | unslotted variableId hx => exact .inl ⟨_, hx, List.mem_of_mem_filter hi⟩
  | given hold hnew => exact .inr (.given hold hnew hi)
  | made hop hs hitems =>
    have hx := Json.mem_of_find? hs
    cases hitems with
    | added hadds =>
      rcases mem_insertAt hi with rfl | hi
      · exact .inr (.added hadds)
      · exact .inl ⟨_, hx, hi⟩
    | edited id hold hnew =>
      rcases mem_replaceItem hi with rfl | hi
      · cases hop
        exact .inr (.edited hs hold hnew)
      · exact .inl ⟨_, hx, hi⟩
    | removed id hold => exact .inl ⟨_, hx, List.mem_of_mem_eraseP hi⟩
    | ordered id hall => exact .inl ⟨_, hx, mem_itemsInOrder i hi⟩

/-! ## Everything else -/

namespace Storage.Holds

variable {P : Root → Prop}

/-- What is done at once with any such root in memory keeps it so. -/
theorem ofLeaves {x : Activity Storage α} (h : ∀ r now, P r → Leaves (Holds P) r now x) :
    Keeps (Always (Holds P)) x := fun _ s ⟨r, hr, hP⟩ => by
  rcases h r s.clock.now hP s ⟨hr, rfl⟩ with ⟨a, t, hrun, ht⟩ | ⟨e, t, hrun, ht⟩
  · rw [hrun]
    exact .done ht fun _ _ => trivial
  · rw [hrun]
    exact .done ht fun _ _ => trivial

/-- An operation on suites keeps what each of its steps keeps. -/
theorem ofComposes {x : Activity Storage α} {op : SuiteOperation}
    (hx : ∀ r now, Composes r now op x) (hstep : ∀ r now r', P r → SuiteStep now r op r' → P r') :
    Keeps (Always (Holds P)) x :=
  ofLeaves fun r now hP => (hx r now).weaken fun _ ⟨r', hr', hs⟩ =>
    ⟨r', hs.root, hr'.elim (fun hsame => hsame ▸ hP) (hstep r now r' hP)⟩

section Variables

variable (hP : ∀ r ds, P r → P { r with definitions := ds })

include hP

theorem saveDefinitions (ds : List (String × Definition)) :
    Keeps (Always (Holds P)) (Storage.saveDefinitions ds) := changeRoot fun r => hP r ds

theorem createVariable (name tag : Option String) (mode : Option Mode) :
    Keeps (Always (Holds P)) (Variables.create name tag mode) := by
  unfold Variables.create
  split
  · exact .pure _
  refine pieces.definitions.bind fun ds => ?_
  split
  · exact .pure _
  split
  · exact .pure _
  split
  · exact .pure _
  refine (Keeps.ofAction (pieces.newId "var" 5)).bind fun id => ?_
  refine (Keeps.ofAction .now).bind fun now => ?_
  exact (saveDefinitions hP _).bind fun _ => .pure _

theorem renameVariable (id : String) (name : Option String) :
    Keeps (Always (Holds P)) (Variables.rename id name) := by
  unfold Variables.rename
  refine pieces.definitions.bind fun ds => ?_
  split
  · exact .pure _
  split
  · exact .pure _
  · exact (Keeps.ofAction .now).bind fun now => (saveDefinitions hP _).bind fun _ => .pure _

theorem deleteVariable {id : String} (hslots : Keeps (Always (Holds P)) (Suites.removeSlots id))
    (withSlots : Bool) : Keeps (Always (Holds P)) (Variables.delete withSlots id) := by
  unfold Variables.delete
  refine pieces.definitions.bind fun ds => ?_
  split
  · exact .pure _
  refine (saveDefinitions hP _).bind fun _ => (Keeps.ofAction (removeValues id)).bind fun _ => ?_
  exact .ite (hslots.bind fun _ => .pure _) (.pure _)

/-- What is asked for aside from suites and settings, and is not about the definitions. -/
theorem aside {op : Operation} (hslots : ∀ id, Keeps (Always (Holds P)) (Suites.removeSlots id))
    (hsave : ∀ suites, op ≠ .ofStore (.saveSuites suites))
    (hsettings : ∀ x, op = .ofStore (.saveSettings x) →
      Keeps (Always (Holds P)) (Storage.saveSettings x))
    (hsuites : ∀ suiteOp, op ≠ .ofSuites suiteOp) : Keeps (Always (Holds P)) op.perform := by
  have hvalues {op : Operation} (hop : op.Within .ofValues) :
      Keeps (Always (Holds P)) op.perform := pieces.perform op hop
  cases op with
  | ofStore op =>
    cases op with
    | saveSuites suites => exact absurd rfl (hsave suites)
    | saveDefinitions ds => exact saveDefinitions hP ds
    | saveSettings x => exact hsettings x rfl
    | save => exact .ofAction (writing.save trivial)
    | saveSoon => exact .ofAction (x := Storage.saveSoon) fun _ _ h => h
    | removeValues id => exact (Keeps.ofAction (removeValues id)).silent
    | setValue id chat v => exact hvalues ⟨trivial, trivial⟩
    | _ => exact hvalues trivial
  | ofVariables op =>
    cases op with
    | create name tag mode => exact (createVariable hP name tag mode).silent
    | rename id name => exact (renameVariable hP id name).silent
    | delete withSlots id => exact (deleteVariable hP (hslots id) withSlots).silent
    | addEntry | updateEntry | toggleEntry | deleteEntry | reorderEntries | put | navigate
    | restore =>
      exact hvalues ⟨trivial, trivial⟩
    | inherit => exact hvalues ⟨trivial, trivial, fun _ => trivial⟩
    | _ => exact hvalues trivial
  | ofSuites op => exact absurd rfl (hsuites op)

end Variables

end Storage.Holds

/-! ### Items -/

/-- The root is in memory, and all suites have items as `Q` says. -/
def Storage.Furnished (Q : List Item → Prop) (s : Storage) : Prop :=
  ∃ r, s.store.root = some r ∧ ∀ x ∈ r.suites, Q x.2.items

/-- What goes for items goes for them without the slots of a variable. -/
def KeptUnslotted (Q : List Item → Prop) : Prop :=
  ∀ items variableId, Q items → Q (items.filter fun i => !i.isSlotFor variableId)

namespace Storage.Furnished

variable {Q : List Item → Prop} {s t : Storage}

theorem unlocked : Unlocked (Furnished Q) := Holds.unlocked

theorem writing : KeepsWriting (Always (Furnished Q)) := Holds.writing

theorem pieces : Pieces .ofValues (Always (Furnished Q)) := Holds.pieces

theorem saveSettings (x : Settings) : Keeps (Always (Furnished Q)) (Storage.saveSettings x) :=
  Holds.changeRoot fun _ hQ => hQ

/-- An operation on suites that makes only such items. -/
theorem ofComposes {x : Activity Storage α} {op : SuiteOperation}
    (hx : ∀ r now, Composes r now op x)
    (hafter : ∀ r now items, (∀ y ∈ r.suites, Q y.2.items) → ItemsAfter now r op items → Q items) :
    Keeps (Always (Furnished Q)) x :=
  Holds.ofComposes hx fun r now _ hQ hstep _ hy => hafter r now _ hQ (hstep.items_after hy)

theorem removeSlots (hnil : Q []) (hslots : KeptUnslotted Q) (variableId : String) :
    Keeps (Always (Furnished Q)) (Suites.removeSlots variableId) :=
  ofComposes (fun _ _ => Composes.removeSlots variableId) fun r now items hQ hitems => by
    cases hitems with
    | none => exact hnil
    | kept _ hx => exact hQ _ hx
    | unslotted variableId hx => exact hslots _ _ (hQ _ hx)
    | made _ _ hmade =>
      cases hmade with
      | added hadds => cases hadds

theorem createVariable (name tag : Option String) (mode : Option Mode) :
    Keeps (Always (Furnished Q)) (Variables.create name tag mode) :=
  Holds.createVariable (fun _ _ hQ => hQ) name tag mode

theorem renameVariable (id : String) (name : Option String) :
    Keeps (Always (Furnished Q)) (Variables.rename id name) :=
  Holds.renameVariable (fun _ _ hQ => hQ) id name

theorem deleteVariable (hnil : Q []) (hslots : KeptUnslotted Q) (withSlots : Bool) (id : String) :
    Keeps (Always (Furnished Q)) (Variables.delete withSlots id) :=
  Holds.deleteVariable (fun _ _ hQ => hQ) (removeSlots hnil hslots id) withSlots

/-- What is asked for aside from suites keeps such items. -/
theorem aside (hnil : Q []) (hslots : KeptUnslotted Q) {op : Operation}
    (hsave : ∀ suites, op ≠ .ofStore (.saveSuites suites))
    (hsuites : ∀ suiteOp, op ≠ .ofSuites suiteOp) : Keeps (Always (Furnished Q)) op.perform :=
  Holds.aside (fun _ _ hQ => hQ) (removeSlots hnil hslots) hsave (fun x _ => saveSettings x) hsuites

theorem ofComposed {now : Int} {op : SuiteOperation} (hQ : ∀ x ∈ r.suites, Q x.2.items)
    (hafter : ∀ items, ItemsAfter now r op items → Q items) (h : s.Composed r now op) :
    s.Furnished Q := by
  obtain ⟨r', hsame | hstep, hs⟩ := h
  · exact ⟨r, hsame ▸ hs.root, hQ⟩
  · exact ⟨r', hs.root, fun x hx => hafter _ (hstep.items_after hx)⟩

theorem onSuites {op : SuiteOperation} {now : Int} (hs : s.Has r now)
    (hQ : ∀ x ∈ r.suites, Q x.2.items) (hafter : ∀ items, ItemsAfter now r op items → Q items) :
    (ended op.perform s).2.Furnished Q := ofComposed hQ hafter ((Composes.perform op).ended hs)

/-- A new store on a shelf without documents has no suites. -/
theorem ofNew (hroot : s.store.root = none) (hdocuments : ∀ name, s.shelf.find? name = none) :
    (ended Storage.load s).2.Furnished Q :=
  Holds.ofNew hroot hdocuments fun _ hx => nomatch hx

end Storage.Furnished

end TagLedger
