import TagLedger.Proofs.Overlong
import TagLedger.Proofs.Spanning

/-!
# How ranges are written

Ranges are read token by token, and what one token writes does not depend on the others. A token
writes a range exactly if there is a bound left of it, or two bounds with a minus sign between them,
once blanks and the at signs in front are taken off. A bound is `end` or digits of any script, with an
optional minus sign: of two bounds the first takes as many digits as there are, so that the minus sign
after it is never that of the second. Ranges that are written are read back.

    readRanges (tokens with commas between)  =  ranges       when each token writes its range
    readRanges (a ++ "," ++ b)               =  readRanges a ++ readRanges b
    readRanges t = [r]                       ↔  r is spelled by t, bared          (readRanges_exact)
-/

namespace TagLedger.Template

open Text (Blanks Digits digitLimit digitsValue intDigits natDigits)

variable {a b d s t token u v w : List Char} {x y : Bound} {r : Range} {ranges : List Range}
  {tokens : List (List Char)}

/-! ## The grammar -/

/-- A bound in a token: digits with an optional minus sign in front, or `end`. -/
inductive Bound.Spelled : Bound → List Char → Prop
  | last : Spelled .last ['e', 'n', 'd']
  | positive {ds} (digits : Digits ds) : Spelled (.at (digitsValue ds)) ds
  | negative {ds} (digits : Digits ds) : Spelled (.at (-(digitsValue ds : Int))) ('-' :: ds)

/-- A range in a token without blanks and marks. -/
inductive Range.Spelled : Range → List Char → Prop
  | one {x : Bound} {d} (bound : Bound.Spelled x d) : Spelled ⟨x, x⟩ d
  | two {x y : Bound} {d e} (first : Bound.Spelled x d) (final : Bound.Spelled y e) :
      Spelled ⟨x, y⟩ (d ++ '-' :: e)

/-- Every row of digits in a text is short enough to be read. -/
def ShortRows (s : List Char) : Prop :=
  ∀ ds, ds <:+: s → (∀ c ∈ ds, Text.isDigit c = true) → ds.length ≤ digitLimit

/-! ## Bounds -/

theorem Bound.Spelled.ne_nil (h : x.Spelled d) : d ≠ [] := by
  cases h with
  | last => exact List.cons_ne_nil _ _
  | positive digits => exact digits.ne_nil
  | negative => exact List.cons_ne_nil _ _

/-- A bound has no blank, no at sign and no comma. -/
theorem Bound.Spelled.chars (h : x.Spelled d) {c : Char} (hc : c ∈ d) :
    Text.isBlank c = false ∧ c ≠ '@' ∧ c ≠ ',' := by
  have hdigit (hdigit : Text.isDigit c = true) : Text.isBlank c = false ∧ c ≠ '@' ∧ c ≠ ',' := by
    refine ⟨Text.isBlank_of_isDigit hdigit, ?_, ?_⟩
    · rintro rfl
      exact absurd hdigit (by decide)
    · rintro rfl
      exact absurd hdigit (by decide)
  cases h with
  | last =>
    simp only [List.mem_cons, List.not_mem_nil, or_false] at hc
    rcases hc with rfl | rfl | rfl <;> decide
  | positive digits => exact hdigit (digits.digit c hc)
  | negative digits =>
    rcases List.mem_cons.mp hc with rfl | hc
    · decide
    · exact hdigit (digits.digit c hc)

theorem boundDigits_digits {ds : List Char} (h : Digits ds) : boundDigits ds = ds := by
  refine boundDigits.eq_2 _ fun r hr => ?_
  have hminus := h.digit '-' (hr ▸ List.mem_cons_self)
  exact absurd hminus (by decide)

theorem Bound.Spelled.short (h : x.Spelled d) (hd : d <:+: s) (hs : ShortRows s) :
    (boundDigits d).length ≤ digitLimit := by
  cases h with
  | last => decide
  | positive digits =>
    rw [boundDigits_digits digits]
    exact hs d hd digits.digit
  | @negative ds digits => exact hs ds ((List.suffix_cons '-' ds).isInfix.trans hd) digits.digit

theorem Bound.Spelled.read (h : x.Spelled d) (hshort : (boundDigits d).length ≤ digitLimit) :
    Bound.read d = .ok x := by
  cases h with
  | last => rfl
  | positive digits =>
    rw [boundDigits_digits digits] at hshort
    have hword : d ≠ ['e', 'n', 'd'] := by
      rintro rfl
      exact absurd (digits.digit 'e' List.mem_cons_self) (by decide)
    have hunsigned : ∀ r, d ≠ '-' :: r := by
      rintro r rfl
      exact absurd (digits.digit '-' List.mem_cons_self) (by decide)
    rw [Bound.read, if_neg hword, Text.readSigned.eq_2 _ hunsigned, Text.readDigits_of_le hshort]
    rfl
  | @negative ds digits =>
    have hword : '-' :: ds ≠ ['e', 'n', 'd'] := fun heq => absurd (List.cons.inj heq).1 (by decide)
    change ds.length ≤ digitLimit at hshort
    rw [Bound.read, if_neg hword, Text.readSigned, Text.readDigits_of_le hshort]
    rfl

/-! ## The bound in front -/

theorem leadingBound?_minus (s : List Char) : leadingBound? ('-' :: s) =
    if (s.takeWhile Text.isDigit).isEmpty then none
    else some ('-' :: s.takeWhile Text.isDigit, s.drop (s.takeWhile Text.isDigit).length) := rfl

theorem leadingBound?_plain (hword : Text.afterStart? ['e', 'n', 'd'] s = none)
    (hunsigned : ∀ r, s ≠ '-' :: r) : leadingBound? s =
      if (s.takeWhile Text.isDigit).isEmpty then none
      else some (s.takeWhile Text.isDigit, s.drop (s.takeWhile Text.isDigit).length) := by
  unfold leadingBound?
  rw [hword]
  dsimp only
  split
  · next r => exact absurd rfl (hunsigned r)
  · rfl

/-- The digits in front, where there are any. -/
theorem digits_takeWhile (h : (s.takeWhile Text.isDigit).isEmpty = false) :
    Digits (s.takeWhile Text.isDigit) where
  ne_nil := List.isEmpty_eq_false_iff.mp h
  digit _ hc := List.mem_takeWhile_imp hc

/-- A bound is found in front of whatever does not go on with a digit. -/
theorem Bound.Spelled.leads (h : x.Spelled d) (ht : ∀ c ∈ t.head?, Text.isDigit c = false) :
    leadingBound? (d ++ t) = some (d, t) := by
  have hfront {ds : List Char} (digits : Digits ds) : (ds ++ t).takeWhile Text.isDigit = ds :=
    takeWhile_append_of_head digits.digit ht
  have hempty {ds : List Char} (digits : Digits ds) : ¬ ds.isEmpty = true := by
    rw [List.isEmpty_iff]
    exact digits.ne_nil
  cases h with
  | last =>
    unfold leadingBound?
    rw [Text.afterStart?_append]
  | positive digits =>
    obtain ⟨c, r, rfl⟩ := List.exists_cons_of_ne_nil digits.ne_nil
    have hc := digits.digit c List.mem_cons_self
    have hword : Text.afterStart? ['e', 'n', 'd'] (c :: r ++ t) = none := by
      refine if_neg ?_
      rintro rfl
      exact absurd hc (by decide)
    have hunsigned : ∀ q, c :: r ++ t ≠ '-' :: q := by
      intro q hq
      cases hq
      exact absurd hc (by decide)
    rw [leadingBound?_plain hword hunsigned, hfront digits, if_neg (hempty digits),
      List.drop_left]
  | @negative ds digits =>
    rw [List.cons_append, leadingBound?_minus, hfront digits, if_neg (hempty digits),
      List.drop_left]

theorem spelled_of_leads (h : leadingBound? s = some (d, t)) :
    s = d ++ t ∧ ∃ x, Bound.Spelled x d := by
  have hcut (q : List Char) : q.takeWhile Text.isDigit ++
      q.drop (q.takeWhile Text.isDigit).length = q := by
    rw [← List.prefix_iff_eq_append]
    exact List.takeWhile_prefix _
  cases hword : Text.afterStart? ['e', 'n', 'd'] s with
  | some r =>
    unfold leadingBound? at h
    rw [hword] at h
    cases h
    exact ⟨Text.eq_of_afterStart? hword, .last, .last⟩
  | none =>
    by_cases hminus : ∃ q, s = '-' :: q
    · obtain ⟨q, rfl⟩ := hminus
      rw [leadingBound?_minus] at h
      split at h
      · cases h
      · next hsome =>
        cases h
        exact ⟨congrArg _ (hcut q).symm, _, .negative (digits_takeWhile (by simpa using hsome))⟩
    · rw [leadingBound?_plain hword (not_exists.mp hminus)] at h
      split at h
      · cases h
      · next hsome =>
        cases h
        exact ⟨(hcut s).symm, _, .positive (digits_takeWhile (by simpa using hsome))⟩

/-! ## The bounds of a token -/

theorem tokenBounds?_one (h : x.Spelled d) : tokenBounds? d = some (d, none) := by
  have hlead := h.leads (t := []) nofun
  rw [List.append_nil] at hlead
  rw [tokenBounds?, hlead]

theorem tokenBounds?_two {e : List Char} (hd : x.Spelled d) (he : y.Spelled e) :
    tokenBounds? (d ++ '-' :: e) = some (d, some e) := by
  have hminus : ∀ c ∈ ('-' :: e).head?, Text.isDigit c = false := fun c hc => by
    cases hc
    decide
  have hlead := he.leads (t := []) nofun
  rw [List.append_nil] at hlead
  rw [tokenBounds?, hd.leads hminus]
  simp only [hlead]

/-- Where a token has bounds, it spells a range. -/
theorem spelled_of_tokenBounds {e : Option (List Char)} (h : tokenBounds? s = some (d, e)) :
    ∃ r, Range.Spelled r s := by
  unfold tokenBounds? at h
  split at h
  · next hlead =>
    obtain ⟨hs, x, hx⟩ := spelled_of_leads hlead
    rw [List.append_nil] at hs
    exact ⟨⟨x, x⟩, hs ▸ .one hx⟩
  · next hlead =>
    split at h
    · next hlead' =>
      obtain ⟨hs, x, hx⟩ := spelled_of_leads hlead
      obtain ⟨hr, y, hy⟩ := spelled_of_leads hlead'
      rw [List.append_nil] at hr
      exact ⟨⟨x, y⟩, hs ▸ hr ▸ .two hx hy⟩
    · cases h
  · cases h

/-! ## One token -/

theorem bareToken_within (s : List Char) : bareToken s <:+: s := by
  have htrim (q : List Char) : Text.trim q <:+: q := by
    obtain ⟨a, b, hq, -, -⟩ := Text.exists_trim q
    exact ⟨a, b, by rw [List.append_assoc]; exact hq.symm⟩
  exact (htrim _).trans ((List.dropWhile_suffix _).isInfix.trans (htrim s))

theorem Range.read?_one (hbare : bareToken token = d) (hd : x.Spelled d)
    (hshort : (boundDigits d).length ≤ digitLimit) : Range.read? token = .ok (some ⟨x, x⟩) := by
  rw [Range.read?, hbare, tokenBounds?_one hd]
  dsimp only
  rw [hd.read hshort]
  rfl

theorem Range.read?_two {e : List Char} (hbare : bareToken token = d ++ '-' :: e)
    (hd : x.Spelled d) (he : y.Spelled e) (hshort : (boundDigits d).length ≤ digitLimit)
    (hshort' : (boundDigits e).length ≤ digitLimit) : Range.read? token = .ok (some ⟨x, y⟩) := by
  rw [Range.read?, hbare, tokenBounds?_two hd he]
  dsimp only
  rw [hd.read hshort, he.read hshort']
  rfl

theorem Range.Spelled.read? (h : r.Spelled (bareToken token)) (hshort : ShortRows token) :
    Range.read? token = .ok (some r) := by
  have hrows {d : List Char} {x : Bound} (hd : x.Spelled d) (hin : d <:+: bareToken token) :
      (boundDigits d).length ≤ digitLimit := hd.short (hin.trans (bareToken_within token)) hshort
  generalize hbare : bareToken token = s at h hrows
  cases h with
  | one bound => exact Range.read?_one hbare bound (hrows bound List.infix_rfl)
  | @two x y d e first final =>
    refine Range.read?_two hbare first final (hrows first ?_) (hrows final ?_)
    · exact (List.prefix_append _ _).isInfix
    · exact ((List.suffix_cons '-' e).trans (List.suffix_append d _)).isInfix

theorem tokenBounds?_of_not_spelled (h : ∀ r, ¬ Range.Spelled r s) : tokenBounds? s = none := by
  cases hbounds : tokenBounds? s with
  | none => rfl
  | some bounds =>
    obtain ⟨r, hr⟩ := spelled_of_tokenBounds hbounds
    exact absurd hr (h r)

/-! ## Tokens in a row -/

theorem splitAt_ne_nil (c : Char) (s : List Char) : splitAt c s ≠ [] := by
  cases s with
  | nil => exact List.cons_ne_nil _ _
  | cons e s =>
    rw [splitAt]
    split
    · exact List.cons_ne_nil _ _
    · split
      · exact List.cons_ne_nil _ _
      · exact List.cons_ne_nil _ _

theorem splitAt_append (c : Char) (a b : List Char) :
    splitAt c (a ++ c :: b) = splitAt c a ++ splitAt c b := by
  induction a with
  | nil => exact if_pos rfl
  | cons e a ih =>
    rw [List.cons_append, splitAt, splitAt, ih]
    split
    · rfl
    · obtain ⟨part, rest, hsplit⟩ := List.exists_cons_of_ne_nil (splitAt_ne_nil c a)
      rw [hsplit]
      rfl

theorem readTokens_append (as bs : List (List Char)) : readTokens (as ++ bs) = (do
    return (← readTokens as) ++ (← readTokens bs)) := by
  induction as with
  | nil =>
    rw [List.nil_append]
    change _ = (readTokens bs >>= fun rs => .ok rs)
    cases readTokens bs with
    | error e => rfl
    | ok rs => rfl
  | cons token as ih =>
    rw [List.cons_append, readTokens, readTokens, ih]
    cases Range.read? token with
    | error e => rfl
    | ok found =>
      cases found with
      | none => rfl
      | some r =>
        cases readTokens as with
        | error e => rfl
        | ok rs =>
          cases readTokens bs with
          | error e => rfl
          | ok rs' => rfl

theorem readRanges_append (a b : List Char) : readRanges (a ++ ',' :: b) = (do
    return (← readRanges a) ++ (← readRanges b)) := by
  rw [readRanges, splitAt_append, readTokens_append]
  rfl

theorem readRanges_of_no_comma (h : ',' ∉ token) :
    readRanges token = (Range.read? token).map Option.toList := by
  rw [readRanges, splitAt_of_not_mem h, readTokens]
  cases Range.read? token with
  | error e => rfl
  | ok found =>
    cases found with
    | none => rfl
    | some r => rfl

/-- A token that reads as no range, whatever stands beside it. -/
structure PassedOver (token : List Char) : Prop where
  alone : readRanges token = .ok []
  first : ∀ b, readRanges (token ++ ',' :: b) = readRanges b
  final : ∀ a, readRanges (a ++ ',' :: token) = readRanges a
  between : ∀ a b, readRanges (a ++ ',' :: (token ++ ',' :: b)) = readRanges (a ++ ',' :: b)

theorem passedOver (h : readRanges token = .ok []) : PassedOver token := by
  have hfirst (b : List Char) : readRanges (token ++ ',' :: b) = readRanges b := by
    rw [readRanges_append, h]
    change (readRanges b >>= fun rs => .ok rs) = _
    cases readRanges b with
    | error e => rfl
    | ok rs => rfl
  refine ⟨h, hfirst, fun a => ?_, fun a b => ?_⟩
  · rw [readRanges_append, h]
    cases readRanges a with
    | error e => rfl
    | ok rs => exact congrArg Except.ok (List.append_nil rs)
  · rw [readRanges_append, hfirst, readRanges_append]

/-! ## Writing -/

def Bound.text : Bound → List Char
  | .last => ['e', 'n', 'd']
  | .at n => intDigits n

/-- The number of a bound can be read, if it has one. -/
def Bound.Brief : Bound → Prop
  | .last => True
  | .at n => Json.Brief n

instance : (x : Bound) → Decidable x.Brief
  | .last => isTrue trivial
  | .at n => inferInstanceAs (Decidable ((natDigits n.natAbs).length ≤ digitLimit))

/-- Both bounds of a range, or the one that it has. -/
inductive Range.Writes (r : Range) : List Char → Prop
  | both : Writes r (r.first.text ++ '-' :: r.final.text)
  | once (same : r.final = r.first) : Writes r r.first.text

/-- A token for a range, with an at sign and any blanks around it. -/
inductive Range.Token (r : Range) : List Char → Prop
  | padded {u v s w : List Char} (before : Blanks u) (inside : Blanks v) (after : Blanks w)
      (bounds : r.Writes s) : Token r (u ++ '@' :: (v ++ (s ++ w)))

theorem Bound.spelled_text (x : Bound) : x.Spelled x.text := by
  cases x with
  | last => exact .last
  | «at» n =>
    have hvalue (k : Nat) : digitsValue (natDigits k) = k := Text.digitsValue_toDigits k
    cases n with
    | ofNat k =>
      have hpositive := Bound.Spelled.positive (digits_natDigits k)
      rwa [hvalue] at hpositive
    | negSucc k =>
      have hnegative := Bound.Spelled.negative (digits_natDigits (k + 1))
      rwa [hvalue] at hnegative

theorem Bound.Brief.short (h : x.Brief) : (boundDigits x.text).length ≤ digitLimit := by
  cases x with
  | last => decide
  | «at» n =>
    cases n with
    | ofNat k =>
      change (boundDigits (natDigits k)).length ≤ digitLimit
      rw [boundDigits_digits (digits_natDigits k)]
      exact h
    | negSucc k => exact h

theorem Range.Writes.spelled (h : r.Writes s) : r.Spelled s := by
  cases h with
  | both => exact .two r.first.spelled_text r.final.spelled_text
  | once same =>
    obtain ⟨first, final⟩ := r
    cases same
    exact .one first.spelled_text

theorem Range.Spelled.ne_nil (h : r.Spelled s) : s ≠ [] := by
  cases h with
  | one bound => exact bound.ne_nil
  | two first final => exact List.append_ne_nil_of_right_ne_nil _ (List.cons_ne_nil _ _)

theorem Range.Spelled.chars (h : r.Spelled s) {c : Char} (hc : c ∈ s) :
    Text.isBlank c = false ∧ c ≠ '@' ∧ c ≠ ',' := by
  cases h with
  | one bound => exact bound.chars hc
  | two first final =>
    rcases List.mem_append.mp hc with hc | hc
    · exact first.chars hc
    · rcases List.mem_cons.mp hc with rfl | hc
      · decide
      · exact final.chars hc

theorem ne_of_mem_blanks {c d : Char} (h : Blanks u) (hc : c ∈ u) (hd : Text.isBlank d = false) :
    c ≠ d := by
  rintro rfl
  exact absurd (h c hc) (by rw [hd]; exact Bool.false_ne_true)

/-- What is left of a token that spells a range. -/
theorem bareToken_padded (hu : Blanks u) (hv : Blanks v) (hw : Blanks w) (hs : r.Spelled s) :
    bareToken (u ++ '@' :: (v ++ (s ++ w))) = s := by
  have hfirst : ∀ c ∈ s.head?, Text.isBlank c = false := fun c hc =>
    (hs.chars (List.mem_of_mem_head? hc)).1
  have hlast : ∀ c ∈ s.getLast?, Text.isBlank c = false := fun c hc =>
    (hs.chars (List.mem_of_mem_getLast? hc)).1
  have houter : Text.trim (u ++ (('@' :: (v ++ s)) ++ w)) = '@' :: (v ++ s) := by
    refine Text.trim_blanks hu hw (List.cons_ne_nil _ _) ?_ ?_
    · intro c hc
      cases hc
      decide
    · rw [← List.cons_append, List.getLast?_append_of_ne_nil _ hs.ne_nil]
      exact hlast
  have hmark : ∀ c ∈ (v ++ s).head?, (c == '@') = false := by
    intro c hc
    rw [beq_eq_false_iff_ne]
    rcases List.mem_append.mp (List.mem_of_mem_head? hc) with hc | hc
    · exact ne_of_mem_blanks hv hc rfl
    · exact (hs.chars hc).2.1
  have hinner : Text.trim (v ++ (s ++ [])) = s :=
    Text.trim_blanks hv blanks_nil hs.ne_nil hfirst hlast
  rw [List.append_nil] at hinner
  rw [List.cons_append, List.append_assoc] at houter
  rw [bareToken, houter, List.dropWhile_cons_of_pos rfl, Text.dropWhile_of_head hmark, hinner]

theorem Range.Token.no_comma (h : r.Token token) : ',' ∉ token := by
  cases h with
  | padded before inside after bounds =>
    simp only [List.mem_append, List.mem_cons, not_or]
    have hblank {q : List Char} (hq : Blanks q) : ',' ∉ q := fun hc => ne_of_mem_blanks hq hc rfl rfl
    exact ⟨hblank before, by decide, hblank inside, fun hc => (bounds.spelled.chars hc).2.2 rfl,
      hblank after⟩

theorem Range.Token.read (h : r.Token token) (hfirst : r.first.Brief) (hfinal : r.final.Brief) :
    readRanges token = .ok [r] := by
  rw [readRanges_of_no_comma h.no_comma]
  cases h with
  | padded before inside after bounds =>
    have hbare := bareToken_padded before inside after bounds.spelled
    cases bounds with
    | both =>
      rw [Range.read?_two hbare r.first.spelled_text r.final.spelled_text hfirst.short hfinal.short]
      rfl
    | once same =>
      rw [Range.read?_one hbare r.first.spelled_text hfirst.short]
      obtain ⟨first, final⟩ := r
      cases same
      rfl

theorem readRanges_intercalate (h : List.Forall₂ Range.Token ranges tokens)
    (hbrief : ∀ r ∈ ranges, r.first.Brief ∧ r.final.Brief) :
    readRanges ([','].intercalate tokens) = .ok ranges := by
  induction h with
  | nil => rfl
  | @cons r token ranges tokens hhead htail ih =>
    obtain ⟨hfirst, hfinal⟩ := hbrief r List.mem_cons_self
    have hread := hhead.read hfirst hfinal
    have hrest := ih fun q hq => hbrief q (List.mem_cons_of_mem _ hq)
    cases htail with
    | nil =>
      rw [List.intercalate_singleton]
      exact hread
    | @cons _ other _ tokens _ _ =>
      rw [List.intercalate_cons_cons, List.append_assoc]
      change readRanges (token ++ ',' :: [','].intercalate (other :: tokens)) = _
      rw [readRanges_append, hread, hrest]
      rfl

/-! ## All of it -/

theorem shortRows_of_length (h : s.length ≤ digitLimit) : ShortRows s := fun _ hds _ =>
  hds.length_le.trans h

/-- Ranges that are written are read back, what is read left of a comma and right of it does not
depend on the other, and a token without a comma reads as the range that it spells, if it spells
one; otherwise it is passed over. -/
theorem readRanges_exact :
    (∀ ranges tokens, List.Forall₂ Range.Token ranges tokens →
      (∀ r ∈ ranges, r.first.Brief ∧ r.final.Brief) →
      readRanges ([','].intercalate tokens) = .ok ranges) ∧
    (∀ a b, readRanges (a ++ ',' :: b) = do return (← readRanges a) ++ (← readRanges b)) ∧
    ∀ token, ',' ∉ token → ShortRows token →
      (∀ r, readRanges token = .ok [r] ↔ Range.Spelled r (bareToken token)) ∧
      ((∀ r, ¬ Range.Spelled r (bareToken token)) → PassedOver token) := by
  refine ⟨fun _ _ => readRanges_intercalate, readRanges_append, fun token hcomma hshort => ?_⟩
  have hspelled {r : Range} (h : r.Spelled (bareToken token)) : readRanges token = .ok [r] := by
    rw [readRanges_of_no_comma hcomma, h.read? hshort]
    rfl
  have hnone (h : ∀ r, ¬ Range.Spelled r (bareToken token)) : readRanges token = .ok [] := by
    rw [readRanges_of_no_comma hcomma, Range.read?, tokenBounds?_of_not_spelled h]
    rfl
  refine ⟨fun r => ⟨fun h => ?_, hspelled⟩, fun h => passedOver (hnone h)⟩
  by_cases hex : ∃ q, Range.Spelled q (bareToken token)
  · obtain ⟨q, hq⟩ := hex
    have heq := (hspelled hq).symm.trans h
    cases heq
    exact hq
  · have heq := (hnone (not_exists.mp hex)).symm.trans h
    cases heq

/-- Minus signs of numbers and between bounds, blanks, and a token that writes no range. -/
theorem readRanges_exact_minus :
    readRanges "@-3--1 , @-2-end".toList = .ok [⟨.at (-3), .at (-1)⟩, ⟨.at (-2), .last⟩] ∧
      (∀ r, ¬ Range.Spelled r (bareToken " 1--".toList)) ∧ PassedOver " 1--".toList := by
  obtain ⟨hwritten, -, htoken⟩ := readRanges_exact
  have hblank : Blanks [' '] := fun c hc => List.mem_singleton.mp hc ▸ rfl
  have hnot : ∀ r, ¬ Range.Spelled r (bareToken " 1--".toList) := by
    intro r hr
    have hread := ((htoken " 1--".toList (by decide) (shortRows_of_length (by decide))).1 r).mpr hr
    have hnone : readRanges " 1--".toList = .ok [] := by decide
    rw [hnone] at hread
    cases hread
  refine ⟨hwritten _ ["@-3--1 ".toList, " @-2-end".toList] ?_ (by decide), hnot,
    (htoken " 1--".toList (by decide) (shortRows_of_length (by decide))).2 hnot⟩
  refine .cons ?_ (.cons ?_ .nil)
  · exact .padded blanks_nil blanks_nil hblank .both
  · exact .padded hblank blanks_nil blanks_nil .both

end TagLedger.Template
