import Mathlib.Data.List.Sort
import TagLedger.Proofs.Selecting
import TagLedger.Template.Range

/-!
# What ranges pick

A range picks the places between its bounds, in ascending order. Of items it picks none if its bounds
are reversed; of floors it does not matter which bound is the larger. Places outside the row are never
picked, so bounds need not be in it. The last place may be written as a number, and where no range is
reversed items and floors are picked at the same places.

    selectItems items ranges  =  the items at the places from first to final, range by range
    selectFloors n ranges     =  the places between first and final, range by range
                                                                          (ranges_pick)
-/

namespace TagLedger.Template

variable {α : Type} {items : List α} {count a b : Int} {n p : Nat} {r s : Range}
  {ranges ranges' : List Range}

/-! ## Places -/

/-- The places from `a` to `b` in a row of `n`, counted from one. -/
def placesFrom (n : Nat) (a b : Int) : List Nat :=
  (List.range' 1 n).filter fun p => a ≤ p ∧ p ≤ b

theorem mem_placesFrom : p ∈ placesFrom n a b ↔ (1 ≤ p ∧ p ≤ n) ∧ a ≤ p ∧ p ≤ b := by
  simp only [placesFrom, List.mem_filter, List.mem_range'_1, decide_eq_true_eq]
  omega

theorem pairwise_placesFrom (n : Nat) (a b : Int) : (placesFrom n a b).Pairwise (· < ·) :=
  List.Pairwise.filter _ List.pairwise_lt_range'

/-- Two ascending rows with the same places are the same row. -/
theorem placesFrom_eq (n : Nat) (a b : Int) :
    placesFrom n a b = List.range' (max 1 a).toNat (min (n : Int) b - max 1 a + 1).toNat := by
  refine (pairwise_placesFrom n a b).eq_of_mem_iff List.pairwise_lt_range' fun p => ?_
  rw [mem_placesFrom, List.mem_range'_1]
  omega

/-- The places in the other direction. -/
theorem placesFrom_of_lt (h : b < a) : placesFrom n a b = [] := by
  rw [placesFrom_eq, List.range'_eq_nil_iff]
  omega

theorem interval_eq (ha : 1 ≤ a) :
    interval a b = (List.range' a.toNat (b - a + 1).toNat).map ((↑) : Nat → Int) := by
  rw [interval, List.range'_eq_map_range, List.map_map]
  refine List.map_congr_left fun k _ => ?_
  change a + (k : Int) = ((a.toNat + k : Nat) : Int)
  omega

/-! ## Bounds -/

/-- The bound with a number for the last place. -/
def Bound.numbered (count : Int) : Bound → Bound
  | .last => .at count
  | b => b

theorem Bound.resolve_numbered (h : 0 ≤ count) (b : Bound) :
    (b.numbered count).resolve count = b.resolve count := by
  rcases b with k | _
  · rfl
  · change (if count < 0 then count + count + 1 else count) = count
    rw [if_neg (by omega)]

/-- The range with numbers for the last place. -/
def Range.numbered (count : Int) (r : Range) : Range :=
  ⟨r.first.numbered count, r.final.numbered count⟩

/-- The range with its bounds the other way round. -/
def Range.swapped (r : Range) : Range := ⟨r.final, r.first⟩

/-! ## One range -/

/-- What a range picks of items stands at its places. -/
theorem map_itemsOf (r : Range) (items : List α) :
    (r.itemsOf items).map some =
      (placesFrom items.length (r.first.resolve items.length) (r.final.resolve items.length)).map
        fun p => items[p - 1]? := by
  rw [placesFrom_eq, Range.itemsOf]
  generalize r.first.resolve items.length = a
  generalize r.final.resolve items.length = b
  refine List.ext_getElem? fun k => ?_
  simp only [List.getElem?_map, List.getElem?_take, List.getElem?_drop]
  by_cases hk : k < (min (items.length : Int) b - max 1 a + 1).toNat
  · have hplace : (max 1 a).toNat + 1 * k - 1 = (max 1 a - 1).toNat + k := by omega
    have hinside : (max 1 a - 1).toNat + k < items.length := by omega
    rw [if_pos hk, List.getElem?_range' hk, Option.map_some, hplace,
      List.getElem?_eq_getElem hinside, Option.map_some]
  · rw [if_neg hk, List.getElem?_eq_none (by rw [List.length_range']; omega)]
    rfl

/-- What a range picks of floors are the places between its bounds. -/
theorem floorsOf_eq (r : Range) (h : 0 < count) :
    r.floorsOf count = (placesFrom count.toNat (min (r.first.resolve count) (r.final.resolve count))
      (max (r.first.resolve count) (r.final.resolve count))).map ((↑) : Nat → Int) := by
  have hcount : ((count.toNat : Nat) : Int) = count := by omega
  rw [placesFrom_eq, hcount, Range.floorsOf]
  exact interval_eq (by omega)

/-! ## All ranges -/

/-- Where each range picks the same, all of them do. -/
theorem selectItems_congr
    (h : List.Forall₂ (fun r s => Range.itemsOf r items = Range.itemsOf s items) ranges ranges') :
    selectItems items ranges = selectItems items ranges' := by
  induction h with
  | nil => rfl
  | cons hhead _ ih =>
    rw [selectItems, List.flatMap_cons, hhead]
    exact congrArg _ ih

theorem selectFloors_congr
    (h : List.Forall₂ (fun r s => r.floorsOf count = s.floorsOf count) ranges ranges') :
    selectFloors count ranges = selectFloors count ranges' := by
  unfold selectFloors
  split
  · rfl
  · induction h with
    | nil => rfl
    | cons hhead _ ih => rw [List.flatMap_cons, List.flatMap_cons, hhead, ih]

theorem map_selectItems (items : List α) (ranges : List Range) :
    (selectItems items ranges).map some =
      (ranges.flatMap fun r => placesFrom items.length (r.first.resolve items.length)
        (r.final.resolve items.length)).map fun p => items[p - 1]? := by
  rw [selectItems, List.map_flatMap, List.map_flatMap]
  exact List.flatMap_congr fun r _ => map_itemsOf r items

theorem selectFloors_eq (count : Int) (ranges : List Range) :
    selectFloors count ranges =
      (ranges.flatMap fun r => placesFrom count.toNat
        (min (r.first.resolve count) (r.final.resolve count))
        (max (r.first.resolve count) (r.final.resolve count))).map ((↑) : Nat → Int) := by
  rw [selectFloors, List.map_flatMap]
  split
  · next hnone =>
    have hzero : count.toNat = 0 := by omega
    rw [hzero]
    exact (List.flatMap_eq_nil_iff.mpr fun r _ => rfl).symm
  · next hsome => exact List.flatMap_congr fun r _ => floorsOf_eq r (by omega)

/-- Ranges that are the same once the last place is a number. -/
theorem forall₂_of_map_numbered {P : Range → Range → Prop}
    (hP : ∀ r s, r.numbered count = s.numbered count → P r s)
    (h : ranges.map (Range.numbered count) = ranges'.map (Range.numbered count)) :
    List.Forall₂ P ranges ranges' := by
  rw [← List.forall₂_eq_eq_eq, List.forall₂_map_left_iff, List.forall₂_map_right_iff] at h
  exact h.imp fun r s => hP r s

theorem resolve_of_numbered (hcount : 0 ≤ count) (h : r.numbered count = s.numbered count) :
    r.first.resolve count = s.first.resolve count ∧
      r.final.resolve count = s.final.resolve count := by
  obtain ⟨hfirst, hfinal⟩ := Range.mk.inj h
  constructor
  · rw [← r.first.resolve_numbered hcount, hfirst, s.first.resolve_numbered hcount]
  · rw [← r.final.resolve_numbered hcount, hfinal, s.final.resolve_numbered hcount]

/-- What ranges pick of items, and of the floors of a chat. -/
structure Picks (items : List α) (count : Int) (ranges : List Range) : Prop where
  /-- Range by range, the items from the first bound to the final one. -/
  items_at : (selectItems items ranges).map some =
    (ranges.flatMap fun r => placesFrom items.length (r.first.resolve items.length)
      (r.final.resolve items.length)).map fun p => items[p - 1]?
  /-- Range by range, the floors between the bounds. -/
  floors_at : selectFloors count ranges =
    (ranges.flatMap fun r => placesFrom count.toNat
      (min (r.first.resolve count) (r.final.resolve count))
      (max (r.first.resolve count) (r.final.resolve count))).map ((↑) : Nat → Int)
  reversed : (∀ r ∈ ranges, r.final.resolve items.length < r.first.resolve items.length) →
    selectItems items ranges = []
  no_floors : count ≤ 0 → selectFloors count ranges = []
  /-- The last place may be written as a number. -/
  items_numbered : ∀ ranges', ranges'.map (Range.numbered items.length) =
    ranges.map (Range.numbered items.length) → selectItems items ranges' = selectItems items ranges
  floors_numbered : ∀ ranges', ranges'.map (Range.numbered count) =
    ranges.map (Range.numbered count) → selectFloors count ranges' = selectFloors count ranges
  floors_swapped : ∀ ranges', List.Forall₂ (fun r' r => r' = r ∨ r' = Range.swapped r) ranges' ranges →
    selectFloors count ranges' = selectFloors count ranges
  /-- Items and floors are picked at the same places. -/
  alike : (∀ r ∈ ranges, r.first.resolve items.length ≤ r.final.resolve items.length) →
    (selectItems items ranges).map some =
      (selectFloors items.length ranges).map fun f => items[f.toNat - 1]?

/-- Whatever the items are, and however many floors there are. -/
theorem ranges_pick (items : List α) (count : Int) (ranges : List Range) :
    Picks items count ranges where
  items_at := map_selectItems items ranges
  floors_at := selectFloors_eq count ranges
  reversed h := by
    rw [← List.map_eq_nil_iff (f := some), map_selectItems, List.map_eq_nil_iff,
      List.flatMap_eq_nil_iff]
    exact fun r hr => placesFrom_of_lt (h r hr)
  no_floors h := if_pos h
  items_numbered ranges' h := by
    refine selectItems_congr (forall₂_of_map_numbered (fun r s hrs => ?_) h)
    obtain ⟨hfirst, hfinal⟩ := resolve_of_numbered (Int.natCast_nonneg _) hrs
    rw [Range.itemsOf, Range.itemsOf, hfirst, hfinal]
  floors_numbered ranges' h := by
    by_cases hnone : count ≤ 0
    · rw [selectFloors, selectFloors, if_pos hnone, if_pos hnone]
    · refine selectFloors_congr (forall₂_of_map_numbered (fun r s hrs => ?_) h)
      obtain ⟨hfirst, hfinal⟩ := resolve_of_numbered (by omega) hrs
      rw [Range.floorsOf, Range.floorsOf, hfirst, hfinal]
  floors_swapped ranges' h := by
    refine selectFloors_congr (h.imp ?_)
    rintro r s (rfl | rfl)
    · rfl
    · change interval _ _ = interval _ _
      rw [Range.swapped, min_comm, max_comm (s.final.resolve count)]
  alike h := by
    rw [map_selectItems, selectFloors_eq, List.map_map, Int.toNat_natCast]
    refine congrArg _ (List.flatMap_congr fun r hr => ?_)
    rw [min_eq_left (h r hr), max_eq_right (h r hr)]

/-- Bounds before the first place and after the last one, and reversed ones of floors. -/
theorem ranges_pick_mixed :
    selectItems ["a", "b", "c"] [⟨.at (-9), .at 2⟩, ⟨.at 2, .at 7⟩, ⟨.at 0, .last⟩] =
        ["a", "b", "b", "c", "a", "b", "c"] ∧
      selectItems ["a", "b", "c"] [⟨.last, .at 2⟩] = [] ∧
      selectFloors 3 [⟨.at (-1), .at 0⟩, ⟨.last, .at 2⟩] = [1, 2, 3, 2, 3] ∧
      selectFloors 0 [⟨.at 1, .last⟩] = [] := by
  have hitems := (ranges_pick ["a", "b", "c"] 3
    [⟨.at (-9), .at 2⟩, ⟨.at 2, .at 7⟩, ⟨.at 0, .last⟩]).alike (by decide)
  have hlast := (ranges_pick ["a"] 3 [⟨.at (-1), .at 0⟩, ⟨.at 3, .at 2⟩]).floors_numbered
    [⟨.at (-1), .at 0⟩, ⟨.last, .at 2⟩] rfl
  have hswapped := (ranges_pick ["a"] 3 [⟨.at 0, .at (-1)⟩, ⟨.at 2, .at 3⟩]).floors_swapped
    [⟨.at (-1), .at 0⟩, ⟨.at 3, .at 2⟩] (.cons (.inr rfl) (.cons (.inr rfl) .nil))
  refine ⟨?_, ?_, ?_, ?_⟩
  · exact List.map_injective_iff.mpr (Option.some_injective _) (hitems.trans (by decide))
  · exact (ranges_pick ["a", "b", "c"] 3 [⟨.last, .at 2⟩]).reversed (by decide)
  · exact (hlast.trans hswapped).trans (by decide)
  · exact (ranges_pick ["a"] 0 [⟨.at 1, .last⟩]).no_floors (by decide)

end TagLedger.Template
