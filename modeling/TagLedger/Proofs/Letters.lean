import Mathlib.Data.List.Forall2
import TagLedger.Text.Case

/-!
# Ignoring case

To be the same letter when case is ignored is to have the same class of lower-case letters, so it is
an equivalence. Characters below the small letters that have no case, brackets and slashes among
them, are the same as no other.

    sameLetter a b ↔ the classes of their lower-case letters agree      (sameLetter_iff)
-/

namespace TagLedger.Text

/-! ## Classes -/

theorem mem_foldClass (n : Nat) : n ∈ foldClass n := by
  unfold foldClass
  cases h : foldClasses.find? (·.contains n) with
  | none => exact List.mem_singleton_self n
  | some l =>
    have hl := List.find?_some h
    exact List.contains_iff_mem.mp hl

/-- No letter lies in two classes. -/
theorem foldClasses_apart : ∀ l ∈ foldClasses, ∀ n ∈ l,
    foldClasses.find? (·.contains n) = some l := by
  decide

theorem foldClass_of_mem {m n : Nat} (h : m ∈ foldClass n) : foldClass m = foldClass n := by
  unfold foldClass at h
  cases hn : foldClasses.find? (·.contains n) with
  | none =>
    rw [hn] at h
    rw [List.mem_singleton.mp h]
  | some l =>
    rw [hn, Option.getD_some] at h
    unfold foldClass
    rw [hn, foldClasses_apart l (List.mem_of_find?_eq_some hn) m h]
    rfl

theorem sameLetter_iff {a b : Char} : sameLetter a b = true ↔
    foldClass (lowerCode b.toNat) = foldClass (lowerCode a.toNat) := by
  unfold sameLetter
  rw [List.contains_iff_mem]
  exact ⟨foldClass_of_mem, fun h => h ▸ mem_foldClass _⟩

/-! ## Characters without case -/

theorem lowerRuns_above : ∀ r ∈ lowerRuns, 97 ≤ r.2.2.2 := by
  decide +kernel

theorem foldClasses_above : ∀ l ∈ foldClasses, ∀ n ∈ l, 97 ≤ n := by
  decide

/-- Nothing else has the lower case of a character below the small letters. -/
theorem eq_of_lowerCode {m n : Nat} (h : lowerCode m = n) (hn : n < 97) : m = n := by
  unfold lowerCode at h
  split at h
  · split at h
    · next hupper =>
      rw [Bool.and_eq_true, decide_eq_true_eq, decide_eq_true_eq] at hupper
      omega
    · exact h
  · split at h
    · next r hr =>
      have habove := lowerRuns_above _ (List.mem_of_find?_eq_some hr)
      dsimp only at habove
      omega
    · exact h

theorem foldClass_below {n : Nat} (hn : n < 97) : foldClass n = [n] := by
  unfold foldClass
  rw [List.find?_eq_none.mpr fun l hl hmem => ?_]
  · rfl
  · have habove := foldClasses_above l hl n (List.contains_iff_mem.mp hmem)
    omega

/-- A character below the small letters that is no capital is the same as no other. -/
theorem sameLetter_caseless {a b : Char} (ha : a.toNat < 97) (hcase : lowerCode a.toNat = a.toNat) :
    sameLetter a b = true ↔ b = a := by
  unfold sameLetter
  rw [hcase, foldClass_below ha, List.contains_iff_mem, List.mem_singleton]
  refine ⟨fun h => Char.toNat_inj.mp (eq_of_lowerCode h ha), ?_⟩
  rintro rfl
  exact hcase

/-! ## Texts -/

/-- Two texts are the same when case is ignored. -/
def SameText (s t : List Char) : Prop := List.Forall₂ (fun a b => sameLetter a b = true) s t

instance (s t : List Char) : Decidable (SameText s t) :=
  inferInstanceAs (Decidable (List.Forall₂ _ s t))

namespace SameText

variable {s t u : List Char}

theorem refl (s : List Char) : SameText s s :=
  List.forall₂_same.mpr fun _ _ => sameLetter_iff.mpr rfl

theorem symm (h : SameText s t) : SameText t s :=
  (List.Forall₂.flip h).imp fun _ _ hab => sameLetter_iff.mpr (sameLetter_iff.mp hab).symm

theorem trans (h : SameText s t) (h' : SameText t u) : SameText s u := by
  induction h generalizing u with
  | nil => exact h'
  | cons hab _ ih =>
    cases h' with
    | cons hbc htu =>
      refine .cons (sameLetter_iff.mpr ?_) (ih htu)
      exact (sameLetter_iff.mp hbc).trans (sameLetter_iff.mp hab)

/-- What is the same as two texts in a row is two texts in a row. -/
theorem of_append (h : SameText (s ++ t) u) : ∃ v w, u = v ++ w ∧ SameText s v ∧ SameText t w := by
  induction s generalizing u with
  | nil => exact ⟨[], u, rfl, .nil, h⟩
  | cons a s ih =>
    cases h with
    | cons hab hrest =>
      obtain ⟨v, w, rfl, hv, hw⟩ := ih hrest
      exact ⟨_ :: v, w, rfl, .cons hab hv, hw⟩

/-- Every letter of the second text stands for one of the first. -/
theorem mem (h : SameText s t) {b : Char} (hb : b ∈ t) : ∃ a ∈ s, sameLetter b a = true := by
  induction h with
  | nil => cases hb
  | cons hab _ ih =>
    rcases List.mem_cons.mp hb with rfl | hb
    · exact ⟨_, List.mem_cons_self, sameLetter_iff.mpr (sameLetter_iff.mp hab).symm⟩
    · obtain ⟨a, ha, hba⟩ := ih hb
      exact ⟨a, List.mem_cons_of_mem _ ha, hba⟩

end SameText

end TagLedger.Text
