import TagLedger.Proofs.Composing
import TagLedger.Proofs.Filling

/-!
# Items that come once

A suite has one slot for a variable at most, and one text about each part of a character, of a book
one for each entry. Whatever adds an item looks for such a one before, and nothing else that is done
to single items makes two the same. But a suite can be given a list of items as a whole, which is
not looked at.

    items come once, and are not given as a whole  →  items come once             (ItemsAfter.once)
    in what comes of an empty store, items come once  ↔  no list in which they do not was given
                                                                               (items_come_once)
-/

namespace TagLedger

open Suites
open Schema (yields_map yields_seq yields_seq_any yields_optional)

variable {s t : Storage} {r : Root} {now : Int} {items : List Item}

/-! ## Items that are the same -/

namespace Item

/-- Two slots of one variable, or two texts about the same part of a character, of a book about the
same entry. -/
def Same : Item → Item → Prop
  | .variable v, .variable w => v.id = w.id
  | .character c, .character d =>
    c.characterId = d.characterId ∧ c.part = d.part ∧
      (c.part = .worldbook → c.entryUid = d.entryUid)
  | _, _ => False

instance : DecidableRel Same := fun i j => by
  cases i <;> cases j <;> unfold Same <;> infer_instance

theorem Same.symm {i j : Item} (h : i.Same j) : j.Same i := by
  cases i <;> cases j <;> try exact h
  · exact Eq.symm h
  · obtain ⟨hcharacter, hpart, hentry⟩ := h
    exact ⟨hcharacter.symm, hpart.symm, fun hbook => (hentry (hpart.trans hbook)).symm⟩

end Item

/-- No two of the items are the same. -/
def Once (items : List Item) : Prop := items.Pairwise fun i j => ¬ i.Same j

instance : DecidablePred Once := fun _ => inferInstanceAs (Decidable (List.Pairwise _ _))

instance : Std.Symm fun i j : Item => ¬ i.Same j := ⟨fun _ _ h hsame => h hsame.symm⟩

namespace Once

theorem sublist {l : List Item} (h : Once items) (hl : l.Sublist items) : Once l :=
  List.Pairwise.sublist hl h

theorem insertAt {item : Item} (h : Once items) (hnew : ∀ i ∈ items, ¬ item.Same i)
    (place : Option Int) : Once (insertAt items item place) := by
  have hperm : (Suites.insertAt items item place).Perm (item :: items) := by
    unfold Suites.insertAt
    split
    · next n =>
      split
      · exact List.perm_middle.trans (by rw [List.take_append_drop])
      · exact List.perm_append_singleton item items
    · exact List.perm_append_singleton item items
  have hcons : Once (item :: items) := List.pairwise_cons.mpr ⟨hnew, h⟩
  exact hperm.symm.pairwise hcons fun hij hji => hij hji.symm

/-- An item is replaced by one that is the same as what it was the same as. -/
theorem replaceItem {id : String} {old new : Item} (h : Once items)
    (hold : items.find? (fun i => i.id == id) = some old)
    (hsame : ∀ j, new.Same j ↔ old.Same j) : Once (replaceItem id new items) := by
  induction items with
  | nil => exact .nil
  | cons i items ih =>
    obtain ⟨hi, hitems⟩ := List.pairwise_cons.mp h
    unfold Suites.replaceItem
    split
    · next hid =>
      rw [List.find?_cons, hid] at hold
      cases hold
      exact List.pairwise_cons.mpr ⟨fun j hj => by rw [hsame]; exact hi j hj, hitems⟩
    · next hid =>
      rw [List.find?_cons, Bool.eq_false_iff.mpr hid] at hold
      refine List.pairwise_cons.mpr ⟨fun j hj => ?_, ih hitems hold⟩
      rcases mem_replaceItem hj with rfl | hj
      · refine fun hij => hi old (List.mem_of_find?_eq_some hold) ?_
        exact ((hsame i).mp hij.symm).symm
      · exact hi j hj

/-- Items that are put in order are taken out of those there are, each once. -/
theorem itemsInOrder {s : Suite} (h : Once s.items) (ids : List String) :
    Once (itemsInOrder s ids) := by
  have hnodup : (Suites.itemsInOrder s ids).Nodup := by
    unfold Suites.itemsInOrder
    refine List.foldlRecOn (motive := List.Nodup) ids _ List.nodup_nil fun out hout id _ => ?_
    split
    · next i =>
      split
      · exact hout
      · next hnew =>
        rw [List.contains_iff_mem] at hnew
        rw [← List.concat_eq_append]
        exact hout.concat hnew
    · exact hout
  refine hnodup.pairwise_of_forall_ne fun i hi j hj hne => ?_
  exact List.Pairwise.forall h (mem_itemsInOrder i hi) (mem_itemsInOrder j hj) hne

end Once

/-! ## What is done to single items -/

/-- An edited item is the same as what it was the same as before. -/
theorem editItem_same (old : Item) (updates : List (String × Json)) (ctx : Schema.Context) :
    Schema.Yields (fun new => ∀ j, new.Same j ↔ old.Same j) (editItem old updates ctx) := by
  rcases old with p | v | c | c
  · iterate 2 refine yields_seq_any ?_
    exact yields_map fun _ _ _ _ j => Iff.rfl
  · exact yields_map fun _ _ j => by cases j <;> exact Iff.rfl
  · iterate 4 refine yields_seq_any ?_
    exact yields_map fun _ _ _ _ _ _ j => Iff.rfl
  · exact yields_map fun _ _ j => by cases j <;> exact Iff.rfl

/-- No item is added that is the same as one that is there. -/
theorem Suites.Adds.fresh {s : Suite} {op : SuiteOperation} {item : Item} {place : Option Int}
    (h : Adds s op item place) : ∀ i ∈ s.items, ¬ item.Same i := by
  intro i hi hsame
  cases h with
  | prompt => exact hsame
  | chat => exact hsame
  | slot id place hnew =>
    cases i with
    | «variable» w =>
      have hnone := List.any_eq_false.mp hnew _ hi
      exact hnone (beq_iff_eq.mpr hsame.symm)
    | _ => exact hsame
  | @character id itemId characterId label shown part entryUid hnew =>
    cases i with
    | character c =>
      obtain ⟨rfl, rfl, hentry⟩ := hsame
      have hnone := List.any_eq_false.mp hnew _ hi
      refine hnone ?_
      simp only [beq_self_eq_true, Bool.true_and, Bool.or_eq_true, bne_iff_ne, ne_eq]
      cases hpart : c.part with
      | worldbook => exact .inr (beq_iff_eq.mpr (hentry hpart).symm)
      | _ => exact .inl (by decide)
    | _ => exact hsame

theorem Suites.ItemStep.once {s : Suite} {op : SuiteOperation} (h : ItemStep now s op items)
    (hs : Once s.items) : Once items := by
  cases h with
  | added hadds => exact hs.insertAt hadds.fresh _
  | edited id hold hnew => exact hs.replaceItem hold (editItem_same _ _ _ _ hnew)
  | removed id hold => exact hs.sublist List.eraseP_sublist
  | ordered id hall => exact hs.itemsInOrder _

/-! ## Items given as a whole -/

/-- An edited suite has the items that it had, or those that are given for all. -/
theorem edit_items (old : Suite) (updates : List (String × Json)) (ctx : Schema.Context) :
    Schema.Yields (fun new => new.items = old.items ∨
      ∃ j, Json.find? (updatesByKey updates) "items" = some j ∧
        Schema.list Item.decode ctx j = .valid new.items) (edit old updates ctx) := by
  refine yields_seq_any ?_
  refine yields_seq (Q := fun items => items = old.items ∨
    ∃ j, Json.find? (updatesByKey updates) "items" = some j ∧
      Schema.list Item.decode ctx j = .valid items) ?_ ?_
  · iterate 2 refine yields_seq_any ?_
    exact yields_map fun _ _ _ _ _ hitems _ => hitems
  · refine yields_optional (.inl rfl) fun key j hkey hj items hitems => .inr ⟨j, ?_, hitems⟩
    obtain rfl : key = "items" := hkey.elim id id
    exact hj

/-- The operation gives a suite, as a whole, items of which two are the same, and the suite takes
them. -/
def Storage.Repeats (s : Storage) : Operation → Prop
  | .ofSuites (.update id updates) =>
    ∃ r old new j, s.store.root = some r ∧ Json.find? r.suites id = some old ∧
      edit old updates ⟨s.clock.now, false⟩ = .valid new ∧
      Json.find? (updatesByKey updates) "items" = some j ∧
      Schema.list Item.decode ⟨s.clock.now, false⟩ j = .valid new.items ∧ ¬ Once new.items
  | _ => False

/-- Items come once after an operation that does not give others as a whole. -/
theorem ItemsAfter.once {op : SuiteOperation} (h : ItemsAfter now r op items)
    (hr : ∀ x ∈ r.suites, Once x.2.items) (hs : s.Has r now) (hop : ¬ s.Repeats (.ofSuites op)) :
    Once items := by
  cases h with
  | none => exact .nil
  | kept _ hx => exact hr _ hx
  | unslotted variableId hx => exact (hr _ hx).sublist List.filter_sublist
  | @given id updates old new hold hnew =>
    rcases edit_items _ _ _ _ hnew with hsame | ⟨j, hj, hdecoded⟩
    · rw [hsame]
      exact hr _ (Json.mem_of_find? hold)
    · obtain rfl := hs.now
      by_contra hrepeated
      exact hop ⟨r, old, new, j, hs.root, hold, hnew, hj, hdecoded, hrepeated⟩
  | made _ hsuite hitems => exact hitems.once (hr _ (Json.mem_of_find? hsuite))

theorem Storage.Repeats.not_once {op : Operation} (h : s.Repeats op) :
    ¬ (ended op.perform s).2.Furnished Once := by
  unfold Repeats at h
  split at h
  · next id updates =>
    obtain ⟨r, old, new, j, hr, hold, hnew, -, -, hrepeated⟩ := h
    have hleft := (Leaves.update hold hnew).silent.ended ⟨hr, rfl⟩
    rintro ⟨r', hr', honce⟩
    have hsame : some r' = some { r with suites := Json.insert r.suites id new } :=
      hr'.symm.trans hleft.root
    cases hsame
    exact hrepeated (honce (id, new) (Json.mem_of_find? (by rw [Json.find?_insert, if_pos rfl])))
  · exact h.elim

/-! ## Runs -/

/-- The operation does not put other suites in the place of all. -/
def Operation.Sparing (op : Operation) : Prop := ∀ suites, op ≠ .ofStore (.saveSuites suites)

/-- What comes of a storage that is asked for operations, none of which gives repeated items. -/
abbrev SparingRun : Storage → Storage → Prop :=
  Relation.ReflTransGen fun s t =>
    StackStep (fun op => op.Sparing ∧ ¬ s.Repeats op) (fun _ _ => False) s t

namespace Storage.Furnished

theorem once_perform {op : Operation} (h : s.Furnished Once) (hsparing : op.Sparing)
    (hop : ¬ s.Repeats op) : (ended op.perform s).2.Furnished Once := by
  by_cases hsuites : ∃ suiteOp, op = .ofSuites suiteOp
  · obtain ⟨suiteOp, rfl⟩ := hsuites
    obtain ⟨r, hr, honce⟩ := h
    have hs : s.Has r s.clock.now := ⟨hr, rfl⟩
    exact onSuites hs honce fun items hitems => hitems.once honce hs hop
  · have haside := aside List.Pairwise.nil
      (fun items _ h => Once.sublist h List.filter_sublist) hsparing fun suiteOp he =>
        hsuites ⟨suiteOp, he⟩
    exact (haside.finish unlocked h).1

theorem once_run (h : s.Furnished Once) (hrun : SparingRun s t) : t.Furnished Once := by
  induction hrun with
  | refl => exact h
  | tail _ hstep ih =>
    cases hstep with
    | ask op hop => exact ih.once_perform hop.1 hop.2
    | elapse time => exact writing.elapse time none _ ih
    | clock clock => exact ih
    | refuse refuses => exact ih
    | renew debounce epoch hnever => exact hnever.elim

end Storage.Furnished

/-- In every state that is reached from an empty store, items come once in all suites, and go on to
do so after any operation that does not give a suite repeated items as a whole, but not after one
that does. -/
theorem items_come_once (hnew : s.store.root = none) (hempty : ∀ name, s.shelf.find? name = none)
    (hrun : SparingRun (ended Storage.load s).2 t) :
    t.Furnished Once ∧ ∀ op : Operation, op.Sparing →
      ((ended op.perform t).2.Furnished Once ↔ ¬ t.Repeats op) := by
  have honce := (Storage.Furnished.ofNew hnew hempty).once_run hrun
  exact ⟨honce, fun op hsparing =>
    ⟨fun hafter hrepeats => hrepeats.not_once hafter, honce.once_perform hsparing⟩⟩

/-- A storage without documents, with a suite. -/
def Storage.withSuite : Storage :=
  (ended Storage.load ⟨.empty "root" "values-" 0 0, .ofDocuments [], ⟨0, 0⟩, .start⟩).2.asked
    [.ofSuites (.create (some "Daily") true none none)]

/-- The suite is given two slots for one variable. -/
def twoSlots : Operation := .ofSuites (.update "suite_0qyxjj"
  [("items", .arr [.obj [("type", .str "variable"), ("id", .str "log")],
    .obj [("type", .str "variable"), ("id", .str "log")]])])

/-- A suite that was given two slots for one variable has them. -/
theorem items_come_once_given : ∃ s t : Storage, s.store.root = none ∧
    (∀ name, s.shelf.find? name = none) ∧ SparingRun (ended Storage.load s).2 t ∧
      t.Repeats twoSlots ∧ ¬ (ended twoSlots.perform t).2.Furnished Once ∧
      (ended (Suites.enabledVariables "suite_0qyxjj") (ended twoSlots.perform t).2).1 =
        .ok ["log", "log"] := by
  let s : Storage := ⟨.empty "root" "values-" 0 0, .ofDocuments [], ⟨0, 0⟩, .start⟩
  let t : Storage := .withSuite
  let suite : Suite := ⟨"suite_0qyxjj", "Daily", true, .manual, [], none, 0, 0⟩
  let slot : Item := .variable ⟨"log", true⟩
  have hrun : SparingRun (ended Storage.load s).2 t :=
    .tail .refl (.ask _ ⟨fun _ => nofun, id⟩)
  have hfound : (t.store.root.bind fun r => Json.find? r.suites "suite_0qyxjj") = some suite := by
    decide +kernel
  obtain ⟨r, hr, hsuite⟩ := Option.bind_eq_some_iff.mp hfound
  have hrepeats : t.Repeats twoSlots :=
    ⟨r, suite, { suite with items := [slot, slot] }, _, hr, hsuite, rfl, rfl, rfl, by decide⟩
  have hiff := (items_come_once (s := s) rfl (fun _ => rfl) hrun).2 twoSlots fun _ => nofun
  exact ⟨s, t, rfl, fun _ => rfl, hrun, hrepeats, fun honce => hiff.mp honce hrepeats,
    by decide +kernel⟩

end TagLedger
