/-!
# Lines of a text

A text from a file may end its lines in several ways; the library knows the line feed only.

    unixLines (unixLines s) = unixLines s           (unixLines_unixLines)
-/

namespace TagLedger.Text

/-- Every line end as a line feed. -/
def unixLines : List Char → List Char
  | '\r' :: '\n' :: r => '\n' :: unixLines r
  | '\r' :: r => '\n' :: unixLines r
  | c :: r => c :: unixLines r
  | [] => []

/-- The text before the first line feed. -/
def firstLine (s : String) : String := String.ofList (s.toList.takeWhile (· != '\n'))

/-! ## Lemmas -/

theorem not_mem_unixLines (s : List Char) : '\r' ∉ unixLines s := by
  fun_induction unixLines s with
  | case1 r ih => simpa using ih
  | case2 r _ ih => simpa using ih
  | case3 c r _ h ih =>
    simp only [List.mem_cons, not_or]
    exact ⟨fun e => h e.symm, ih⟩
  | case4 => simp

theorem unixLines_of_not_mem {s : List Char} (h : '\r' ∉ s) : unixLines s = s := by
  fun_induction unixLines s with
  | case1 r _ => simp at h
  | case2 r _ _ => simp at h
  | case3 c r _ _ ih => rw [ih (fun m => h (List.mem_cons_of_mem _ m))]
  | case4 => rfl

theorem unixLines_unixLines (s : List Char) : unixLines (unixLines s) = unixLines s :=
  unixLines_of_not_mem (not_mem_unixLines s)

end TagLedger.Text
