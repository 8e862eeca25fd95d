import Mathlib.Data.List.Perm.Subperm
import TagLedger.Proofs.Revising

/-!
# Items in another order

The items of a suite are put in the order in which their identifiers first appear in a list. The list
may name items that are not there, and items more than once. The request is met if the list names
every item, and no two items have one identifier, for the second of them would never be found;
otherwise nothing is changed. What is put in order are the same items, each once.

    i ∈ itemsInOrder s ids  ↔  i.id ∈ ids, and i is the first item with its identifier
                                                                              (mem_itemsInOrder_iff)
    itemsInOrder s ids are all items  ↔  Covers ids s.items                     (covers_iff_length)
    a request changes the order of the items of one suite, or nothing at all    (reordering_exact)
-/

namespace TagLedger

variable {ids : List String} {items : List Item} {s t : Storage} {r : Root}

/-! ## The order of the items -/

namespace Suites

/-- The list names every item, and no two items have one identifier. -/
structure Covers (ids : List String) (items : List Item) : Prop where
  apart : (items.map (·.id)).Nodup
  named : ∀ i ∈ items, i.id ∈ ids

/-- One item comes before another if its identifier appears first. -/
def Ascends (ids : List String) (items : List Item) : Prop :=
  items.Pairwise fun x y => ids.idxOf x.id < ids.idxOf y.id

theorem itemsInOrder_concat (s : Suite) (ids : List String) (id : String) :
    itemsInOrder s (ids ++ [id]) = match s.find? id with
      | some i => if (itemsInOrder s ids).contains i then itemsInOrder s ids
        else itemsInOrder s ids ++ [i]
      | none => itemsInOrder s ids := List.foldl_append

theorem id_of_find? {s : Suite} {id : String} {i : Item} (h : s.find? id = some i) : i.id = id :=
  (Suite.find?_eq_some.mp h).1

/-- What is put in order is what the list finds. -/
theorem mem_itemsInOrder_iff (s : Suite) (ids : List String) (i : Item) :
    i ∈ itemsInOrder s ids ↔ i.id ∈ ids ∧ s.find? i.id = some i := by
  induction ids using List.reverseRecOn with
  | nil => exact iff_of_false nofun nofun
  | append_singleton ids id ih =>
    rw [itemsInOrder_concat, List.mem_append, List.mem_singleton, or_and_right, ← ih]
    cases hfound : s.find? id with
    | none =>
      refine (or_iff_left ?_).symm
      rintro ⟨rfl, hi⟩
      exact nomatch hfound.symm.trans hi
    | some j =>
      have hj := id_of_find? hfound
      have hlast : i.id = id ∧ s.find? i.id = some i ↔ i = j := by
        refine ⟨fun ⟨hid, hi⟩ => ?_, fun hij => ?_⟩
        · rw [hid, hfound] at hi
          exact (Option.some.inj hi).symm
        · rw [hij, hj]
          exact ⟨rfl, hfound⟩
      dsimp only
      rw [hlast]
      split
      · next hold =>
        refine (or_iff_left_of_imp ?_).symm
        rintro rfl
        exact List.contains_iff_mem.mp hold
      · rw [List.mem_append, List.mem_singleton]

/-- Each item that is found is put after those that were found before. -/
theorem ascends_itemsInOrder (s : Suite) (ids : List String) : Ascends ids (itemsInOrder s ids) := by
  induction ids using List.reverseRecOn with
  | nil => exact .nil
  | append_singleton ids id ih =>
    have hnamed {x : Item} (hx : x ∈ itemsInOrder s ids) : x.id ∈ ids :=
      ((mem_itemsInOrder_iff s ids x).mp hx).1
    have hold : Ascends (ids ++ [id]) (itemsInOrder s ids) := ih.imp_of_mem fun hx hy hxy => by
      rwa [List.idxOf_append_of_mem (hnamed hx), List.idxOf_append_of_mem (hnamed hy)]
    rw [itemsInOrder_concat]
    split
    · next i hfound =>
      split
      · exact hold
      · next hnew =>
        have hid := id_of_find? hfound
        -- an item that was not found before has an identifier that did not appear before
        have hfresh : i.id ∉ ids := fun hmem => by
          refine hnew (List.contains_iff_mem.mpr ((mem_itemsInOrder_iff s ids i).mpr ⟨hmem, ?_⟩))
          rw [hid]
          exact hfound
        refine List.pairwise_append.mpr ⟨hold, List.pairwise_singleton _ _, fun x hx y hy => ?_⟩
        obtain rfl := List.mem_singleton.mp hy
        rw [List.idxOf_append_of_mem (hnamed hx), List.idxOf_append_of_notMem hfresh]
        exact Nat.lt_add_right _ (List.idxOf_lt_length_of_mem (hnamed hx))
    · exact hold

theorem Ascends.nodup (h : Ascends ids items) : (items.map (·.id)).Nodup := by
  refine List.pairwise_map.mpr (h.imp fun hlt heq => ?_)
  rw [heq] at hlt
  exact lt_irrefl _ hlt

/-- With identifiers apart, every item is the one that is found. -/
theorem find?_of_apart {s : Suite} (h : (s.items.map (·.id)).Nodup) {i : Item} (hi : i ∈ s.items) :
    s.find? i.id = some i := by
  cases hfound : s.find? i.id with
  | none => exact absurd (beq_self_eq_true i.id) (List.find?_eq_none.mp hfound i hi)
  | some j =>
    have hj : j ∈ s.items := List.mem_of_find?_eq_some hfound
    rw [List.inj_on_of_nodup_map h hj hi (id_of_find? hfound)]

/-- If the list names all items, they are put in order, each once. -/
theorem perm_itemsInOrder {s : Suite} (h : Covers ids s.items) :
    (itemsInOrder s ids).Perm s.items := by
  have hfound := (ascends_itemsInOrder s ids).nodup.of_map
  refine (List.perm_ext_iff_of_nodup hfound h.apart.of_map).mpr fun i => ?_
  rw [mem_itemsInOrder_iff]
  exact ⟨fun hi => List.mem_of_find?_eq_some hi.2, fun hi => ⟨h.named i hi, find?_of_apart h.apart hi⟩⟩

/-- Names that are unknown or repeated never make up for an item that is missing. -/
theorem covers_iff_length {s : Suite} :
    Covers ids s.items ↔ (itemsInOrder s ids).length = s.items.length := by
  refine ⟨fun h => (perm_itemsInOrder h).length_eq, fun hlength => ?_⟩
  have hascends := ascends_itemsInOrder s ids
  have hperm : (itemsInOrder s ids).Perm s.items :=
    (hascends.nodup.of_map.subperm mem_itemsInOrder).perm_of_length_le hlength.ge
  exact ⟨(hperm.map (·.id)).nodup_iff.mp hascends.nodup, fun i hi =>
    ((mem_itemsInOrder_iff s ids i).mp (hperm.mem_iff.mpr hi)).1⟩

end Suites

open Suites

/-! ## Requests -/

/-- A suite with its items in order: they are the same items, each once, by the first appearance of
their identifiers, the time of the last change is now, and the rest is what it was. -/
def Suite.Reordered (ids : List String) (now : Int) (old new : Suite) : Prop :=
  ∃ items, items.Perm old.items ∧ Ascends ids items ∧
    new = { old with items := items, updatedAt := now }

/-- What becomes of a request to put the items of a suite in order, and the storage after it. -/
structure Storage.Reorders (s : Storage) (r : Root) (id : String) (ids : List String)
    (outcome : Except Failure Bool × Storage) : Prop where
  missing : Json.find? r.suites id = none → outcome = (.ok false, s)
  /-- An item that the list does not name, or that cannot be found: nothing is changed. -/
  refused : ∀ old, Json.find? r.suites id = some old → ¬ Covers ids old.items →
    outcome = (.ok false, s)
  /-- The suite stands in its place with its items in order; the others are where and what they
  were. -/
  reordered : ∀ old, Json.find? r.suites id = some old → Covers ids old.items →
    ∃ new suites, Suite.Reordered ids s.clock.now old new ∧
      Json.keys suites = Json.keys r.suites ∧
      (∀ k, Json.find? suites k = if k = id then some new else Json.find? r.suites k) ∧
      outcome = (.ok true, s.withRoot { r with suites := suites })

theorem Storage.reorders_reorderItems (hroot : s.store.root = some r) (id : String)
    (ids : List String) : s.Reorders r id ids (ended (reorderItems id ids) s) := by
  have hfind : ended (Suites.find? id) s = (.ok (Json.find? r.suites id), s) :=
    ended_bind_ok (ended_suites hroot) _
  unfold reorderItems
  rw [ended_bind_ok hfind]
  constructor
  · intro hnone
    rw [hnone]
    rfl
  · intro old hold hshort
    rw [hold]
    dsimp only
    rw [if_pos (mt covers_iff_length.mpr hshort)]
    rfl
  · intro old hold hcovers
    rw [hold]
    dsimp only
    rw [if_neg (not_not.mpr (covers_iff_length.mp hcovers))]
    refine ⟨_, _, ⟨_, perm_itemsInOrder hcovers, ascends_itemsInOrder old ids, rfl⟩,
      keys_withItems .., fun k => find?_withItems hold (itemsInOrder old ids) s.clock.now k, ?_⟩
    exact ended_bind_ok (ended_setItems hroot id (itemsInOrder old ids)) _

/-- A request for another order succeeds exactly if its list names every item of the suite and no two
items have one identifier; then the suite has the same items, each once, by the first appearance of
their identifiers in the list. Otherwise nothing is changed. -/
theorem reordering_exact (hload : ended Storage.load s = (.ok r, t)) (id : String)
    (ids : List String) : t.Reorders r id ids (ended (reorderItems id ids) s) := by
  have hroot := Storage.root_of_load hload
  -- the request begins with loading, so it does the same where the root is loaded already
  have hsame : ended Storage.load s = ended Storage.load t :=
    hload.trans (Storage.ended_load_some hroot).symm
  have hfind := ended_bind_congr (ended_bind_congr hsame fun r => pure r.suites)
    fun suites => pure (Json.find? suites id)
  have hrun : ended (reorderItems id ids) s = ended (reorderItems id ids) t :=
    ended_bind_congr hfind _
  rw [hrun]
  exact Storage.reorders_reorderItems hroot id ids

/-- A storage at the time 7 that has a suite of two items in memory. -/
def Storage.ofPair : Storage :=
  let daily : Suite := ⟨"daily", "Daily", true, .manual,
    [.prompt ⟨"a", "", "Hello", true⟩, .variable ⟨"b", true⟩], none, 1, 1⟩
  ⟨{ Store.empty "root" "values-" 0 0 with root := some { Root.standard with
    suites := [("daily", daily)] } }, .ofDocuments [], ⟨7, 0⟩, .start⟩

/-- A list that names both items, one of them twice, and an unknown one; and a list that names one
item as often as there are items. -/
theorem reordering_exact_pair : ∃ (s : Storage) (r : Root) (old new : Suite),
    ended Storage.load s = (.ok r, s) ∧ Json.find? r.suites "daily" = some old ∧
      Covers ["x", "b", "b", "a"] old.items ∧
      s.Reorders r "daily" ["x", "b", "b", "a"]
        (.ok true, s.withRoot { r with suites := [("daily", new)] }) ∧
      new = ⟨"daily", "Daily", true, .manual,
        [.variable ⟨"b", true⟩, .prompt ⟨"a", "", "Hello", true⟩], none, 1, 7⟩ ∧
      s.Reorders r "daily" ["b", "b"] (.ok false, s) := by
  have hload : ended Storage.load .ofPair = (.ok _, .ofPair) := Storage.ended_load_some rfl
  exact ⟨.ofPair, _, _, _, hload, rfl, ⟨by decide, by decide⟩,
    reordering_exact hload "daily" ["x", "b", "b", "a"], rfl,
    reordering_exact hload "daily" ["b", "b"]⟩

end TagLedger
