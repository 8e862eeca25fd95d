import Mathlib.Data.List.Basic
import TagLedger.Text.Scan

/-!
# Where marks are found

A text in which no mark starts, whatever follows it, is copied character by character, and a mark in
front is found as a whole; then the rest is cut on its own. So the marks of a text that was put
together from pieces are known from the pieces.

    no mark starts in `s` before `t`  →  scan read (s ++ t) = s as it is, then scan read t
                                                                             (scan_unmarked)
    read (s ++ t) = some (a, s.length)  →  scan read (s ++ t) = a, then scan read t  (scan_mark)
-/

namespace TagLedger.Text

variable {α : Type} {read : MarkReader α} {a : α} {s t : List Char}

theorem scanFrom_length (s t : List Char) : scanFrom read s.length (s ++ t) = scan read t := by
  induction s with
  | nil => rfl
  | cons c s ih => exact ih

/-- A mark in front is found, and the rest is cut on its own. -/
theorem scan_mark (hne : s ≠ []) (h : read (s ++ t) = some (a, s.length)) :
    scan read (s ++ t) = .mark a :: scan read t := by
  obtain ⟨c, s, rfl⟩ := List.exists_cons_of_ne_nil hne
  unfold scan
  rw [List.cons_append] at h ⊢
  rw [scanFrom, h]
  exact congrArg (Piece.mark a :: ·) (scanFrom_length s t)

theorem scan_char {c : Char} (h : read (c :: s) = none) :
    scan read (c :: s) = .char c :: scan read s := by
  unfold scan
  rw [scanFrom, h]

/-- No mark starts in `s` if `t` follows it. -/
def Unmarked (read : MarkReader α) (s t : List Char) : Prop :=
  ∀ b, b <:+ s → b ≠ [] → read (b ++ t) = none

theorem scan_unmarked (h : Unmarked read s t) :
    scan read (s ++ t) = s.map .char ++ scan read t := by
  induction s with
  | nil => rfl
  | cons c s ih =>
    have hhead : read (c :: (s ++ t)) = none :=
      h (c :: s) (List.suffix_refl _) (List.cons_ne_nil c s)
    rw [List.cons_append, scan_char hhead, ih fun b hb => h b (hb.trans (List.suffix_cons c s))]
    rfl

theorem marks_unmarked (h : Unmarked read s t) : marks read (s ++ t) = marks read t := by
  unfold marks
  rw [scan_unmarked h, List.filterMap_append, List.filterMap_map]
  exact List.append_left_eq_self.mpr (List.filterMap_eq_nil_iff.mpr fun _ _ => rfl)

theorem marks_mark (hne : s ≠ []) (h : read (s ++ t) = some (a, s.length)) :
    marks read (s ++ t) = a :: marks read t := by
  unfold marks
  rw [scan_mark hne h]
  rfl

end TagLedger.Text
