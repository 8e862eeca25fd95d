import TagLedger.Proofs.Expanding

/-!
# Rounds until nothing changes

The first round replaces the builtins, and none is made anew: what is put in place of a builtin or a
sum begins and ends a row of digits, and no name of a builtin has any. Each sum takes one plus sign
away, so there are no more rounds that replace sums than plus signs. Then neither is left, and the
text stays as it is.

    s.count '+' + 1 ≤ rounds  →  resolveBuiltins rounds last s = .ok t, without builtins and sums
    '@n₁+n₂+…+nₘ' becomes '@n' with the sum n of all terms              (resolveBuiltins_converges)
-/

namespace TagLedger

namespace Text

variable {α ε : Type} {read : MarkReader α} {f : α → Except ε (List Char)} {s t w : List Char}

/-! ## Texts put together again -/

/-- A text with something in place of each mark, mark by mark. -/
inductive Filled (read : MarkReader α) (f : α → Except ε (List Char)) :
    List Char → List Char → Prop
  | nil : Filled read f [] []
  | char {c : Char} {s t : List Char} :
      read (c :: s) = none → Filled read f s t → Filled read f (c :: s) (c :: t)
  | mark {m s v t : List Char} {a : α} :
      read (m ++ s) = some (a, m.length) → f a = .ok v → Filled read f s t →
      Filled read f (m ++ s) (v ++ t)

theorem filled_of_fill (hread : ∀ u a n, read u = some (a, n) → 0 < n ∧ n ≤ u.length)
    (h : fill f (scan read s) = .ok t) : Filled read f s t := by
  induction hlen : s.length using Nat.strongRecOn generalizing s t with
  | _ n ih =>
    cases s with
    | nil =>
      cases h
      exact .nil
    | cons c s =>
      cases hmark : read (c :: s) with
      | none =>
        rw [scan_char hmark, fill] at h
        obtain ⟨rest, hrest, rfl⟩ := map_eq_ok h
        exact .char hmark (ih s.length (by rw [← hlen]; exact Nat.lt_succ_self _) hrest rfl)
      | some found =>
        obtain ⟨a, k⟩ := found
        obtain ⟨hpos, hle⟩ := hread _ a k hmark
        -- the mark is cut off the text
        obtain ⟨m, u, hcut, hm⟩ : ∃ m u, c :: s = m ++ u ∧ m.length = k :=
          ⟨(c :: s).take k, (c :: s).drop k, (List.take_append_drop k _).symm,
            List.length_take_of_le hle⟩
        rw [hcut] at h hmark hlen ⊢
        rw [← hm] at hmark
        have hne : m ≠ [] := List.ne_nil_of_length_pos (by omega)
        rw [scan_mark hne hmark, fill] at h
        split at h
        · cases h
        · next v hv =>
          obtain ⟨rest, hrest, rfl⟩ := map_eq_ok h
          refine .mark hmark hv (ih u.length ?_ hrest rfl)
          rw [List.length_append] at hlen
          omega

namespace Filled

/-- A word that has no character of a mark's text is in front only if it was before. -/
theorem starts_before (hmark : ∀ a v, f a = .ok v → v ≠ [] ∧ ∀ c ∈ v, c ∉ w)
    (h : Filled read f s t) (hw : w <+: t) : w <+: s := by
  induction h generalizing w with
  | nil => exact hw
  | @char c s t _ _ ih =>
    cases w with
    | nil => exact List.nil_prefix
    | cons d w =>
      obtain ⟨heq, hrest⟩ := List.cons_prefix_cons.mp hw
      refine List.cons_prefix_cons.mpr ⟨heq, ih (fun a v hv => ?_) hrest⟩
      exact (hmark a v hv).imp_right fun h c hc hmem => h c hc (List.mem_cons_of_mem d hmem)
  | @mark m s v t a _ hv _ _ =>
    cases w with
    | nil => exact List.nil_prefix
    | cons d w =>
      obtain ⟨hne, hchars⟩ := hmark a v hv
      obtain ⟨e, v, rfl⟩ := List.exists_cons_of_ne_nil hne
      obtain ⟨rfl, -⟩ := List.cons_prefix_cons.mp hw
      exact absurd List.mem_cons_self (hchars d List.mem_cons_self)

/-- Such a word was written before, where no mark starts. -/
theorem written_before (hne : w ≠ []) (hmark : ∀ a v, f a = .ok v → v ≠ [] ∧ ∀ c ∈ v, c ∉ w)
    (h : Filled read f s t) (hw : w <:+: t) : ∃ u, u <:+ s ∧ w <+: u ∧ read u = none := by
  induction h with
  | nil => exact absurd (List.eq_nil_of_infix_nil hw) hne
  | @char c s t hread hrest ih =>
    rcases List.infix_cons_iff.mp hw with hw | hw
    · exact ⟨c :: s, List.suffix_refl _, (char hread hrest).starts_before hmark hw, hread⟩
    · obtain ⟨u, hu, h⟩ := ih hw
      exact ⟨u, hu.trans (List.suffix_cons c s), h⟩
  | @mark m s v t a _ hv _ ih =>
    have hchars := (hmark a v hv).2
    have hlater : w <:+: t := by
      clear hv
      induction v with
      | nil => exact hw
      | cons d v ihv =>
        rw [List.cons_append] at hw
        rcases List.infix_cons_iff.mp hw with hw | hw
        · obtain ⟨e, w, rfl⟩ := List.exists_cons_of_ne_nil hne
          obtain ⟨rfl, -⟩ := List.cons_prefix_cons.mp hw
          exact absurd List.mem_cons_self (hchars e List.mem_cons_self)
        · exact ihv hw fun c hc => hchars c (List.mem_cons_of_mem d hc)
    obtain ⟨u, hu, h⟩ := ih hlater
    exact ⟨u, hu.trans (List.suffix_append m s), h⟩

theorem count_le {c : Char}
    (hmark : ∀ m s a v, read (m ++ s) = some (a, m.length) → f a = .ok v → v.count c ≤ m.count c)
    (h : Filled read f s t) : t.count c ≤ s.count c := by
  induction h with
  | nil => exact Nat.le_refl _
  | char _ _ ih =>
    rw [List.count_cons, List.count_cons]
    exact Nat.add_le_add_right ih _
  | mark hread hv _ ih =>
    rw [List.count_append, List.count_append]
    exact Nat.add_le_add (hmark _ _ _ _ hread hv) ih

/-- If each mark takes the character away, a text without marks is left, or there is less of it. -/
theorem unmarked_or_count_lt {c : Char}
    (hmark : ∀ m s a v, read (m ++ s) = some (a, m.length) → f a = .ok v → v.count c < m.count c)
    (h : Filled read f s t) : Unmarked read s [] ∨ t.count c < s.count c := by
  induction h with
  | nil => exact .inl fun b hb hne => absurd (List.suffix_nil.mp hb) hne
  | @char d s t hread _ ih =>
    refine ih.imp (fun h b hb hne => ?_) fun h => ?_
    · rcases List.suffix_cons_iff.mp hb with rfl | hb
      · rw [List.append_nil]
        exact hread
      · exact h b hb hne
    · rw [List.count_cons, List.count_cons]
      exact Nat.add_lt_add_right h _
  | mark hread hv hrest =>
    have hle := hrest.count_le fun m s a v hread hv => (hmark m s a v hread hv).le
    rw [List.count_append, List.count_append]
    exact .inr (Nat.add_lt_add_of_lt_of_le (hmark _ _ _ _ hread hv) hle)

end Filled

end Text

namespace Template

open Text (digitLimit digitsValue natDigits isDigit)
open Json (Brief)

variable {last : Int} {s t u : List Char}

/-! ## Texts with nothing left to replace -/

/-- Neither a builtin nor a sum is written in the text. -/
structure Resolved (t : List Char) : Prop where
  no_builtin : ∀ name ∈ builtinNames, ¬ name <:+: t
  no_sum : ∀ a d, a ≠ [] → (∀ c ∈ a, isDigit c = true) → isDigit d = true →
    ¬ '@' :: (a ++ ['+', d]) <:+: t

/-- No text that rounds make of this one has numerals that are too long. -/
def WithinLimit (last : Int) (s : List Char) : Prop :=
  ∀ k t, After last k s t → ¬ Strained last t

theorem builtinMark_eq_none_iff :
    builtinMark s = none ↔ ∀ name ∈ builtinNames, ¬ name <+: s := by
  unfold builtinMark
  rw [Option.map_eq_none_iff, List.findSome?_eq_none_iff]
  refine forall₂_congr fun name _ => ?_
  rw [Option.map_eq_none_iff]
  constructor
  · rintro h ⟨r, rfl⟩
    rw [Text.afterStart?_append] at h
    cases h
  · intro h
    rw [Option.eq_none_iff_forall_ne_some]
    exact fun r hr => h ⟨r, (Text.eq_of_afterStart? hr).symm⟩

theorem unmarked_builtins_iff :
    Text.Unmarked builtinMark s [] ↔ ∀ name ∈ builtinNames, ¬ name <:+: s := by
  constructor
  · rintro h name hname ⟨a, b, rfl⟩
    have hne : name ++ b ≠ [] := fun hnil => by
      rw [(List.append_eq_nil_iff.mp hnil).1] at hname
      exact absurd hname (by decide)
    have hnone := h (name ++ b) (by rw [List.append_assoc]; exact List.suffix_append _ _) hne
    rw [List.append_nil] at hnone
    exact builtinMark_eq_none_iff.mp hnone name hname (List.prefix_append _ _)
  · intro h b hb _
    rw [List.append_nil]
    exact builtinMark_eq_none_iff.mpr fun name hname hpre =>
      h name hname (hpre.isInfix.trans hb.isInfix)

theorem sumMark_sum {a b r : List Char} (ha : a ≠ []) (hb : b ≠ [])
    (hadigits : ∀ c ∈ a, isDigit c = true) (hbdigits : ∀ c ∈ b, isDigit c = true)
    (hr : ∀ c ∈ r.head?, isDigit c = false) :
    sumMark ('@' :: (a ++ '+' :: (b ++ r))) = some (⟨a, b⟩, a.length + b.length + 2) := by
  have htake : (a ++ '+' :: (b ++ r)).takeWhile isDigit = a :=
    takeWhile_run hadigits (by decide)
  have htake' : (b ++ r).takeWhile isDigit = b := takeWhile_append_of_head hbdigits hr
  unfold sumMark
  simp only [htake, List.drop_left, htake', List.isEmpty_eq_false_iff.mpr ha,
    List.isEmpty_eq_false_iff.mpr hb, Bool.false_eq_true, if_false]

/-- A sum is found wherever one is written. -/
theorem sumMark_ne_none {a r : List Char} {d : Char} (ha : a ≠ [])
    (hdigits : ∀ c ∈ a, isDigit c = true) (hd : isDigit d = true) :
    sumMark ('@' :: (a ++ '+' :: d :: r)) ≠ none := by
  have htake : (a ++ '+' :: d :: r).takeWhile isDigit = a := takeWhile_run hdigits (by decide)
  unfold sumMark
  simp [htake, ha, hd]

theorem not_sum_of_unmarked (h : Text.Unmarked sumMark s []) {a : List Char} {d : Char}
    (ha : a ≠ []) (hdigits : ∀ c ∈ a, isDigit c = true) (hd : isDigit d = true) :
    ¬ '@' :: (a ++ ['+', d]) <:+: s := by
  rintro ⟨x, y, rfl⟩
  have hnone := h ('@' :: (a ++ ['+', d]) ++ y)
    (by rw [List.append_assoc]; exact List.suffix_append _ _) (List.cons_ne_nil _ _)
  refine sumMark_ne_none (r := y) ha hdigits hd ?_
  simpa using hnone

/-- No mark of either kind starts in the text. -/
structure Settled (s : List Char) : Prop where
  builtins : Text.Unmarked builtinMark s []
  sums : Text.Unmarked sumMark s []

theorem Settled.resolved (h : Settled s) : Resolved s where
  no_builtin := unmarked_builtins_iff.mp h.builtins
  no_sum _ _ := not_sum_of_unmarked h.sums

theorem Settled.expandOnce (h : Settled s) (last : Int) : expandOnce last s = .ok s := by
  unfold Template.expandOnce
  rw [Text.fill_unmarked _ h.builtins]
  exact Text.fill_unmarked _ h.sums

/-! ## What is put for a mark -/

theorem numeral_chars {n : Int} (h : numeral n = .ok t) :
    t ≠ [] ∧ ∀ c ∈ t, Text.isAsciiDigit c = true ∨ c = '-' := by
  obtain ⟨text, htext, rfl⟩ := map_eq_ok h
  unfold Text.writeInt at htext
  split at htext
  · cases htext
    rw [Text.intText, String.toList_ofList, Json.intDigits_eq]
    have hne : natDigits n.natAbs ≠ [] := Nat.toDigits_ne_nil
    have hdigits (c : Char) (hc : c ∈ natDigits n.natAbs) : Text.isAsciiDigit c = true :=
      Text.isAsciiDigit_of_mem_toDigits hc
    unfold Json.signed
    split
    · exact ⟨List.cons_ne_nil _ _, fun c hc => (List.mem_cons.mp hc).symm.imp_left (hdigits c)⟩
    · exact ⟨hne, fun c hc => .inl (hdigits c hc)⟩
  · cases htext

theorem count_plus_numeral {n : Int} (h : numeral n = .ok t) : t.count '+' = 0 := by
  rw [List.count_eq_zero]
  intro hmem
  rcases (numeral_chars h).2 _ hmem with h | h
  · exact absurd h (by decide)
  · exact absurd h (by decide)

theorem Offset.text_eq_ok {o : Offset} (h : o.text last = .ok t) : ∃ n, numeral n = .ok t := by
  obtain ⟨n, -, hn⟩ := bind_eq_ok h
  exact ⟨n, hn⟩

theorem Sum.text_eq_ok {q : Sum} (h : q.text = .ok t) :
    ∃ w n, t = '@' :: w ∧ numeral n = .ok w := by
  obtain ⟨a, -, h⟩ := bind_eq_ok h
  obtain ⟨b, -, h⟩ := bind_eq_ok h
  obtain ⟨w, hw, h⟩ := bind_eq_ok h
  cases h
  exact ⟨w, _, rfl, hw⟩

/-- The names of builtins have no character that is put for a mark. -/
theorem not_mem_builtinName {name : List Char} (hname : name ∈ builtinNames) :
    '@' ∉ name ∧ '-' ∉ name ∧ ∀ c ∈ name, Text.isAsciiDigit c = false := by
  have hall : (builtinNames.all fun name => !name.contains '@' && !name.contains '-' &&
      name.all fun c => !Text.isAsciiDigit c) = true := by decide
  simpa [and_assoc] using List.all_eq_true.mp hall name hname

theorem numeral_foreign {name : List Char} {n : Int} (hname : name ∈ builtinNames)
    (h : numeral n = .ok t) : t ≠ [] ∧ ∀ c ∈ t, c ∉ name := by
  obtain ⟨hne, hchars⟩ := numeral_chars h
  obtain ⟨-, hminus, hdigits⟩ := not_mem_builtinName hname
  refine ⟨hne, fun c hc hmem => ?_⟩
  rcases hchars c hc with h | rfl
  · rw [hdigits c hmem] at h
    cases h
  · exact hminus hmem

/-! ## One round -/

theorem filled_builtins (h : Text.fill (Offset.text last) (Text.scan builtinMark s) = .ok t) :
    Text.Filled builtinMark (Offset.text last) s t :=
  Text.filled_of_fill (fun _ _ _ => builtinMark_bounds) h

theorem filled_sums (h : Text.fill Sum.text (Text.scan sumMark s) = .ok t) :
    Text.Filled sumMark Sum.text s t :=
  Text.filled_of_fill (fun _ _ _ => sumMark_bounds) h

/-- Builtins are all replaced at once, and none is made. -/
theorem unmarked_builtins_expandOnce (h : expandOnce last s = .ok t) :
    Text.Unmarked builtinMark t [] := by
  obtain ⟨u, hu, ht⟩ := bind_eq_ok h
  rw [unmarked_builtins_iff]
  intro name hname hinfix
  have hne : name ≠ [] := fun hnil => by
    rw [hnil] at hname
    exact absurd hname (by decide)
  obtain ⟨v, hv, hpre, -⟩ := (filled_sums ht).written_before hne (fun q w hw => by
    obtain ⟨w, n, rfl, hn⟩ := Sum.text_eq_ok hw
    refine ⟨List.cons_ne_nil _ _, fun c hc => ?_⟩
    rcases List.mem_cons.mp hc with rfl | hc
    · exact (not_mem_builtinName hname).1
    · exact (numeral_foreign hname hn).2 c hc) hinfix
  obtain ⟨w, -, hpre, hnone⟩ := (filled_builtins hu).written_before hne (fun o w hw => by
    obtain ⟨n, hn⟩ := Offset.text_eq_ok hw
    exact numeral_foreign hname hn) (hpre.isInfix.trans hv.isInfix)
  exact builtinMark_eq_none_iff.mp hnone name hname hpre

theorem count_plus_builtins (h : Text.fill (Offset.text last) (Text.scan builtinMark s) = .ok t) :
    t.count '+' ≤ s.count '+' := by
  refine (filled_builtins h).count_le fun m u o v _ hv => ?_
  obtain ⟨n, hn⟩ := Offset.text_eq_ok hv
  rw [count_plus_numeral hn]
  exact Nat.zero_le _

/-- A sum takes its plus sign away. -/
theorem unmarked_or_count_plus_lt (h : Text.fill Sum.text (Text.scan sumMark s) = .ok t) :
    Text.Unmarked sumMark s [] ∨ t.count '+' < s.count '+' := by
  refine (filled_sums h).unmarked_or_count_lt fun m u q v hm hv => ?_
  obtain ⟨w, n, rfl, hn⟩ := Sum.text_eq_ok hv
  obtain ⟨-, -, hlen, r, hr⟩ := sumMark_eq_some hm
  have hmark : m = '@' :: (q.left ++ '+' :: q.right) := by
    have heq : m ++ u = '@' :: (q.left ++ '+' :: q.right) ++ r := by
      rw [hr]
      simp
    refine (List.append_inj heq ?_).1
    rw [hlen]
    simp
    omega
  have hplus : 0 < m.count '+' := List.count_pos_iff.mpr (by rw [hmark]; simp)
  have hnone : ('@' :: w).count '+' = 0 := by
    rw [List.count_cons_of_ne (by decide), count_plus_numeral hn]
  rwa [hnone]

theorem count_plus_expandOnce (h : expandOnce last s = .ok t) : t.count '+' ≤ s.count '+' := by
  obtain ⟨u, hu, ht⟩ := bind_eq_ok h
  refine le_trans ?_ (count_plus_builtins hu)
  rcases unmarked_or_count_plus_lt ht with hsums | hlt
  · rw [Text.fill_unmarked _ hsums] at ht
    cases ht
    exact Nat.le_refl _
  · exact hlt.le

/-- Without builtins a round takes a plus sign away, unless nothing is left to replace. -/
theorem settled_or_count_plus_lt (hs : Text.Unmarked builtinMark s [])
    (h : expandOnce last s = .ok t) : Settled s ∨ t.count '+' < s.count '+' := by
  obtain ⟨u, hu, ht⟩ := bind_eq_ok h
  rw [Text.fill_unmarked _ hs] at hu
  cases hu
  exact (unmarked_or_count_plus_lt ht).imp_left fun hsums => ⟨hs, hsums⟩

theorem count_plus_pos (hs : Text.Unmarked builtinMark s []) (h : Strained last s) :
    0 < s.count '+' := by
  have hmarks : Text.marks builtinMark s = [] := by
    have hnone := Text.marks_unmarked hs
    rwa [List.append_nil] at hnone
  cases h with
  | offset hfound _ =>
    rw [hmarks] at hfound
    exact absurd hfound List.not_mem_nil
  | sum hreplaced hfound _ =>
    rw [Text.fill_unmarked _ hs] at hreplaced
    cases hreplaced
    obtain ⟨u, n, hu, hread⟩ := Text.exists_of_mem_marks hfound
    obtain ⟨-, -, -, r, rfl⟩ := sumMark_eq_some hread
    exact List.count_pos_iff.mpr (hu.subset (by simp))

/-! ## All rounds -/

/-- Without builtins there are no more rounds than plus signs, whether the last one fails or not. -/
theorem exists_after_of_unmarked (last : Int) {n : Nat} (hs : Text.Unmarked builtinMark s [])
    (hn : s.count '+' ≤ n) :
    ∃ k t, After last k s t ∧ (k ≤ n ∧ Settled t ∨ k < n ∧ Strained last t) := by
  induction n generalizing s with
  | zero =>
    have hsound : ¬ Strained last s := fun h => by
      have hpos := count_plus_pos hs h
      omega
    obtain ⟨t, ht⟩ := not_fails_iff.mp fun h => hsound (fails_expandOnce.mp h)
    have hsettled := (settled_or_count_plus_lt hs ht).resolve_right (by omega)
    exact ⟨0, s, .start, .inl ⟨Nat.le_refl 0, hsettled⟩⟩
  | succ n ih =>
    by_cases hstrained : Strained last s
    · exact ⟨0, s, .start, .inr ⟨Nat.succ_pos n, hstrained⟩⟩
    obtain ⟨t, ht⟩ := not_fails_iff.mp fun h => hstrained (fails_expandOnce.mp h)
    rcases settled_or_count_plus_lt hs ht with hsettled | hlt
    · exact ⟨0, s, .start, .inl ⟨Nat.zero_le _, hsettled⟩⟩
    · obtain ⟨k, u, hafter, h⟩ := ih (unmarked_builtins_expandOnce ht) (by omega)
      refine ⟨k + 1, u, .round ht hafter, h.imp ?_ ?_⟩
      · exact And.imp_left Nat.succ_le_succ
      · exact And.imp_left Nat.succ_lt_succ

theorem exists_after (last : Int) (s : List Char) :
    ∃ k t, After last k s t ∧ k ≤ s.count '+' + 1 ∧
      (Settled t ∨ k < s.count '+' + 1 ∧ Strained last t) := by
  by_cases hstrained : Strained last s
  · exact ⟨0, s, .start, Nat.zero_le _, .inr ⟨Nat.succ_pos _, hstrained⟩⟩
  obtain ⟨t, ht⟩ := not_fails_iff.mp fun h => hstrained (fails_expandOnce.mp h)
  obtain ⟨k, u, hafter, h⟩ :=
    exists_after_of_unmarked last (unmarked_builtins_expandOnce ht) (count_plus_expandOnce ht)
  refine ⟨k + 1, u, .round ht hafter, ?_⟩
  rcases h with ⟨hk, hu⟩ | ⟨hk, hu⟩
  · exact ⟨Nat.succ_le_succ hk, .inl hu⟩
  · exact ⟨Nat.succ_le_succ hk.le, .inr ⟨Nat.succ_lt_succ hk, hu⟩⟩

/-- Enough rounds make the text that no round changes. -/
theorem expand_of_after {k rounds : Nat} (h : After last k s t) (hk : k ≤ rounds)
    (ht : expandOnce last t = .ok t) : expand rounds last s = .ok t := by
  induction h generalizing rounds with
  | start => exact expand_settled rounds ht
  | @round k a b c hround hrest ih =>
    cases rounds with
    | zero => exact absurd hk (Nat.not_succ_le_zero k)
    | succ rounds =>
      rw [expand, hround]
      dsimp only
      split
      · next hsame =>
        subst hsame
        rw [hrest.settled hround]
      · exact ih (Nat.le_of_succ_le_succ hk) ht

theorem resolveBuiltins_of_after {k : Nat} {rounds : Int} (h : After last k s t)
    (hk : (k : Int) ≤ rounds) (ht : expandOnce last t = .ok t) :
    resolveBuiltins rounds last s = .ok t := by
  rw [resolveBuiltins, expand_of_after h (by omega) ht]
  rfl

theorem resolveBuiltins_of_strained {k : Nat} {rounds : Int} (h : After last k s t)
    (hk : (k : Int) < rounds) (ht : Strained last t) :
    resolveBuiltins rounds last s = .error .numeralTooLong := by
  obtain ⟨e, he⟩ := fails_expand.mpr ⟨k, t, show k < rounds.toNat by omega, h, ht⟩
  rw [resolveBuiltins, he]
  rfl

/-! ## Rows of terms -/

/-- A term, or a number that terms add up to, that can be read. -/
structure Numeral (ds : List Char) : Prop where
  ne_nil : ds ≠ []
  digits : ∀ c ∈ ds, isDigit c = true
  short : ds.length ≤ digitLimit

theorem isDigit_of_isAsciiDigit {c : Char} (h : Text.isAsciiDigit c = true) : isDigit c = true := by
  unfold isDigit
  rw [Text.digitValue?_of_isAsciiDigit h]
  rfl

theorem Numeral.natDigits {n : Nat} (h : Brief n) : Numeral (natDigits n) where
  ne_nil := Nat.toDigits_ne_nil
  digits _ hc := isDigit_of_isAsciiDigit (Text.isAsciiDigit_of_mem_toDigits hc)
  short := h

theorem Numeral.not_mem {ds : List Char} (h : Numeral ds) {c : Char} (hc : isDigit c = false) :
    c ∉ ds := fun hmem => by
  rw [h.digits c hmem] at hc
  cases hc

theorem numeral_natCast {n : Nat} (h : Brief n) : numeral n = .ok (natDigits n) := by
  unfold numeral Text.writeInt
  rw [if_pos (show (natDigits (n : Int).natAbs).length ≤ digitLimit from h)]
  exact congrArg Except.ok String.toList_ofList

theorem brief_of_natCast_le {m n : Nat} (hle : m ≤ n) (h : Brief n) : Brief m := by
  unfold Brief at h ⊢
  rw [Int.natAbs_natCast] at h ⊢
  have hlimit : 0 < digitLimit := by decide
  rw [natDigits, Nat.length_toDigits_le_iff (by decide) hlimit] at h ⊢
  omega

/-- Terms with a plus sign in front of each. -/
def addends (rows : List (List Char)) : List Char := rows.flatMap ('+' :: ·)

theorem intercalate_plus (ds : List Char) (rows : List (List Char)) :
    ['+'].intercalate (ds :: rows) = ds ++ addends rows := by
  induction rows generalizing ds with
  | nil => simp [addends]
  | cons b rows ih => simp [ih, addends]

theorem not_mem_addends {rows : List (List Char)} (hrows : ∀ ds ∈ rows, Numeral ds) {c : Char}
    (hc : isDigit c = false) (hplus : c ≠ '+') : c ∉ addends rows := by
  unfold addends
  rw [List.mem_flatMap]
  rintro ⟨ds, hds, hmem⟩
  exact (List.mem_cons.mp hmem).elim hplus ((hrows ds hds).not_mem hc)

theorem head_addends (rows : List (List Char)) : ∀ c ∈ (addends rows).head?, isDigit c = false := by
  cases rows with
  | nil => exact nofun
  | cons ds rows =>
    intro c hc
    cases hc
    decide

theorem count_plus_addends {rows : List (List Char)} (hrows : ∀ ds ∈ rows, Numeral ds) :
    (addends rows).count '+' = rows.length := by
  induction rows with
  | nil => rfl
  | cons ds rows ih =>
    obtain ⟨hds, hrows⟩ := List.forall_mem_cons.mp hrows
    have hnone : ds.count '+' = 0 := List.count_eq_zero.mpr (hds.not_mem (by decide))
    have hih := ih hrows
    unfold addends at hih ⊢
    rw [List.flatMap_cons, List.count_append, List.count_cons_self, hnone, hih, List.length_cons]
    omega

/-- A round adds up the first two terms of a row. -/
theorem expandOnce_row {a b : List Char} {rows : List (List Char)} (ha : Numeral a) (hb : Numeral b)
    (hrows : ∀ ds ∈ rows, Numeral ds)
    (hsum : Brief ((digitsValue a + digitsValue b : Nat) : Int)) :
    expandOnce last ('@' :: (a ++ addends (b :: rows))) =
      .ok ('@' :: (natDigits (digitsValue a + digitsValue b) ++ addends rows)) := by
  have hopen : Text.Unmarked builtinMark ('@' :: (a ++ addends (b :: rows))) [] := fun u hu _ => by
    rw [List.append_nil]
    refine builtinMark_eq_none fun hmem => ?_
    rcases List.mem_cons.mp (hu.subset hmem) with h | h
    · exact absurd h (by decide)
    · refine (List.mem_append.mp h).elim (ha.not_mem (by decide)) ?_
      refine not_mem_addends (fun ds hds => ?_) (by decide) (by decide)
      exact (List.mem_cons.mp hds).elim (fun heq => heq ▸ hb) (hrows ds)
  have hcut : '@' :: (a ++ '+' :: (b ++ addends rows)) =
      '@' :: (a ++ '+' :: b) ++ addends rows := by simp
  have hmark : sumMark ('@' :: (a ++ '+' :: b) ++ addends rows) =
      some (⟨a, b⟩, ('@' :: (a ++ '+' :: b)).length) := by
    have h := sumMark_sum ha.ne_nil hb.ne_nil ha.digits hb.digits (head_addends rows)
    rw [← hcut, h]
    simp only [List.length_cons, List.length_append]
    rfl
  have htext : (Sum.mk a b).text = .ok ('@' :: natDigits (digitsValue a + digitsValue b)) := by
    unfold Sum.text
    rw [Text.readDigits_of_le ha.short, Text.readDigits_of_le hb.short]
    change (numeral ((digitsValue a : Int) + (digitsValue b : Int))).bind _ = _
    rw [← Int.natCast_add, numeral_natCast hsum]
    rfl
  have hrest : Text.fill Sum.text (Text.scan sumMark (addends rows)) = .ok (addends rows) :=
    Text.fill_unmarked _ (unmarked_sums (.inl (not_mem_addends hrows (by decide) (by decide))))
  unfold expandOnce
  rw [Text.fill_unmarked _ hopen]
  change Text.fill Sum.text (Text.scan sumMark _) = _
  rw [show addends (b :: rows) = '+' :: (b ++ addends rows) from rfl, hcut,
    Text.scan_mark (List.cons_ne_nil _ _) hmark, Text.fill, htext, hrest]
  rfl

/-- The terms are added up one after the other. -/
theorem after_row {a : List Char} {rows : List (List Char)} {total : Nat} (ha : Numeral a)
    (hrows : ∀ ds ∈ rows, Numeral ds) (hne : rows ≠ [])
    (htotal : total = digitsValue a + (rows.map digitsValue).sum) (hbrief : Brief total) :
    After last rows.length ('@' :: (a ++ addends rows)) ('@' :: natDigits total) := by
  induction rows generalizing a with
  | nil => exact absurd rfl hne
  | cons b rows ih =>
    obtain ⟨hb, hrest⟩ := List.forall_mem_cons.mp hrows
    rw [List.map_cons, List.sum_cons] at htotal
    have hsum : Brief ((digitsValue a + digitsValue b : Nat) : Int) :=
      brief_of_natCast_le (by omega) hbrief
    refine .round (expandOnce_row ha hb hrest hsum) ?_
    cases rows with
    | nil =>
      rw [htotal]
      simp only [addends, List.flatMap_nil, List.append_nil, List.map_nil, List.sum_nil, Nat.add_zero]
      exact .start
    | cons c rows =>
      refine ih (.natDigits hsum) hrest (List.cons_ne_nil c rows) ?_
      rw [natDigits, Text.digitsValue_toDigits]
      omega

/-- Rounds that are enough for the plus signs of a text leave neither builtins nor sums. -/
theorem resolveBuiltins_converges (last : Int) (s : List Char) :
    (∀ rounds : Int, s.count '+' + 1 ≤ rounds →
      resolveBuiltins rounds last s = resolveBuiltins (s.count '+' + 1) last s) ∧
    (WithinLimit last s → ∃ t, resolveBuiltins (s.count '+' + 1) last s = .ok t ∧ Resolved t ∧
      ∀ rounds last', resolveBuiltins rounds last' t = .ok t) ∧
    ∀ rows : List (List Char), s = '@' :: ['+'].intercalate rows → 2 ≤ rows.length →
      (∀ ds ∈ rows, Numeral ds) → Brief ((rows.map digitsValue).sum : Nat) →
      s.count '+' + 1 = rows.length ∧
        resolveBuiltins rows.length last s = .ok ('@' :: natDigits (rows.map digitsValue).sum) := by
  obtain ⟨k, t, hafter, hk, ht⟩ := exists_after last s
  refine ⟨fun rounds hrounds => ?_, fun hlimit => ?_, ?_⟩
  · rcases ht with ht | ⟨hlt, ht⟩
    · rw [resolveBuiltins_of_after hafter (by omega) (ht.expandOnce last),
        resolveBuiltins_of_after hafter (by omega) (ht.expandOnce last)]
    · rw [resolveBuiltins_of_strained hafter (by omega) ht,
        resolveBuiltins_of_strained hafter (by omega) ht]
  · have ht : Settled t := ht.resolve_right fun h => hlimit k t hafter h.2
    refine ⟨t, resolveBuiltins_of_after hafter (by omega) (ht.expandOnce last), ht.resolved, ?_⟩
    exact fun rounds last' => by
      rw [resolveBuiltins, expand_settled _ (ht.expandOnce last')]
      rfl
  · rintro rows rfl hlen hrows hbrief
    cases rows with
    | nil => exact absurd hlen (by decide)
    | cons a rows =>
      obtain ⟨ha, hrest⟩ := List.forall_mem_cons.mp hrows
      have hne : rows ≠ [] := List.ne_nil_of_length_pos (Nat.lt_of_succ_lt_succ hlen)
      rw [intercalate_plus]
      have hnone : a.count '+' = 0 := List.count_eq_zero.mpr (ha.not_mem (by decide))
      constructor
      · rw [List.count_cons_of_ne (by decide), List.count_append, hnone, count_plus_addends hrest,
          Nat.zero_add]
        rfl
      · have hsum : Numeral (natDigits ((a :: rows).map digitsValue).sum) := .natDigits hbrief
        refine resolveBuiltins_of_after (after_row ha hrest hne rfl hbrief) ?_
          (expandOnce_of_unmarked (fun u hu _ => ?_) (.inr ?_))
        · rw [List.length_cons]
          omega
        · rw [List.append_nil]
          refine builtinMark_eq_none fun hmem => ?_
          exact (List.mem_cons.mp (hu.subset hmem)).elim (by decide) (hsum.not_mem (by decide))
        · exact fun hmem => (List.mem_cons.mp hmem).elim (by decide) (hsum.not_mem (by decide))

/-- No text that rounds make of a short one has numerals that are too long. -/
theorem withinLimit_of_short (hlast : last.natAbs < 10 ^ 16) (hs : s.length ≤ digitLimit) :
    WithinLimit last s := fun _ _ hafter =>
  not_strained hlast ((hafter.length_le hlast hs).trans hs)

/-- A text with a builtin between two plus signs, and a row of three terms. -/
theorem resolveBuiltins_converges_short :
    (∃ t, resolveBuiltins 3 7 "@1+\x7b\x7blastMessageId\x7d\x7d+2".toList = .ok t ∧ Resolved t) ∧
      resolveBuiltins 3 0 "@1+2+33".toList = .ok "@36".toList := by
  constructor
  · obtain ⟨t, ht, hresolved, -⟩ :=
      (resolveBuiltins_converges 7 "@1+\x7b\x7blastMessageId\x7d\x7d+2".toList).2.1
        (withinLimit_of_short (by decide) (by decide))
    exact ⟨t, ht, hresolved⟩
  · exact ((resolveBuiltins_converges 0 "@1+2+33".toList).2.2 [['1'], ['2'], ['3', '3']] (by decide)
      (by decide) (fun ds hds => by
        rcases List.mem_cons.mp hds with rfl | hds
        · exact ⟨by decide, List.all_eq_true.mp (by decide), by decide⟩
        rcases List.mem_cons.mp hds with rfl | hds
        · exact ⟨by decide, List.all_eq_true.mp (by decide), by decide⟩
        cases List.mem_singleton.mp hds
        exact ⟨by decide, List.all_eq_true.mp (by decide), by decide⟩) (by decide)).2

end Template

end TagLedger
