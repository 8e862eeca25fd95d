import TagLedger.Json.Parser
import TagLedger.Json.Printer
import TagLedger.Proofs.Decimals

/-!
# Numbers that read back

The text of a number is read as the number, whatever stands behind it, unless that could go on the
number.

    readPlain (intDigits n ++ rest) = .ok (.int n, rest)                  (readPlain_intDigits)
    readPlain (text .document x ++ rest) = .ok (.float x, rest)           (readPlain_text)
-/

namespace TagLedger.Text

/-! ## Digits -/

theorem digitValue?_of_isAsciiDigit {c : Char} (h : isAsciiDigit c) :
    digitValue? c = some (c.toNat - 48) := by
  simp only [isAsciiDigit, Bool.and_eq_true, decide_eq_true_eq] at h
  unfold digitValue? digitZeros
  rw [List.find?_cons_of_pos]
  · rfl
  · simp [h.1, h.2]

theorem isAsciiDigit_digitChar {n : Nat} (h : n < 10) : isAsciiDigit n.digitChar := by
  simp only [isAsciiDigit, Nat.toNat_digitChar_of_lt_ten h, Bool.and_eq_true, decide_eq_true_eq]
  omega

theorem isAsciiDigit_of_mem_toDigits {n : Nat} {c : Char} (h : c ∈ Nat.toDigits 10 n) :
    isAsciiDigit c := by
  induction n using Nat.strongRecOn with
  | _ n ih =>
    rcases Nat.lt_or_ge n 10 with hn | hn
    · rw [Nat.toDigits_of_lt_base hn, List.mem_singleton] at h
      exact h ▸ isAsciiDigit_digitChar hn
    · rw [Nat.toDigits_of_base_le (by decide) hn, List.mem_append] at h
      rcases h with h | h
      · exact ih (n / 10) (by omega) h
      · rw [List.mem_singleton] at h
        exact h ▸ isAsciiDigit_digitChar (Nat.mod_lt n (by decide))

/-- A numeral starts with a zero only if it is zero. -/
theorem head_toDigits_ne_zero {n : Nat} (hn : n ≠ 0) {c : Char} {r : List Char}
    (h : Nat.toDigits 10 n = c :: r) : c ≠ '0' := by
  induction n using Nat.strongRecOn generalizing c r with
  | _ n ih =>
    rcases Nat.lt_or_ge n 10 with hlt | hge
    · rw [Nat.toDigits_of_lt_base hlt, List.cons.injEq] at h
      rw [← h.1, Ne, Nat.digitChar_eq_zero]
      exact hn
    · rw [Nat.toDigits_of_base_le (by decide) hge] at h
      cases hd : Nat.toDigits 10 (n / 10) with
      | nil => exact absurd hd Nat.toDigits_ne_nil
      | cons d ds =>
        rw [hd, List.cons_append, List.cons.injEq] at h
        rw [← h.1]
        exact ih (n / 10) (by omega) (by omega) hd

/-! ## The value of digits -/

theorem digitsValue_foldl (ds : List Char) (n : Nat) :
    ds.foldl (fun n c => 10 * n + (digitValue? c).getD 0) n = n * 10 ^ ds.length + digitsValue ds := by
  unfold digitsValue
  induction ds generalizing n with
  | nil => simp
  | cons c r ih =>
    rw [List.foldl_cons, List.foldl_cons, ih, ih (10 * 0 + _), List.length_cons]
    ring

theorem digitsValue_append (ds es : List Char) :
    digitsValue (ds ++ es) = digitsValue ds * 10 ^ es.length + digitsValue es := by
  have h := digitsValue_foldl es (digitsValue ds)
  rw [← h]
  unfold digitsValue
  rw [List.foldl_append]

theorem digitsValue_singleton {n : Nat} (h : n < 10) : digitsValue [n.digitChar] = n := by
  have hv := digitValue?_of_isAsciiDigit (isAsciiDigit_digitChar h)
  rw [Nat.toNat_digitChar_of_lt_ten h, Nat.add_sub_cancel_left] at hv
  simp [digitsValue, hv]

theorem digitsValue_toDigits (n : Nat) : digitsValue (Nat.toDigits 10 n) = n := by
  induction n using Nat.strongRecOn with
  | _ n ih =>
    rcases Nat.lt_or_ge n 10 with hn | hn
    · rw [Nat.toDigits_of_lt_base hn, digitsValue_singleton hn]
    · rw [Nat.toDigits_of_base_le (by decide) hn, digitsValue_append, ih (n / 10) (by omega),
        digitsValue_singleton (Nat.mod_lt n (by decide)), List.length_singleton]
      omega

theorem digitsValue_zeros (n : Nat) : digitsValue (List.replicate n '0') = 0 := by
  have hzero : digitValue? '0' = some 0 := by decide
  induction n with
  | zero => rfl
  | succ n ih =>
    rw [List.replicate_succ, ← List.singleton_append, digitsValue_append, ih]
    simp [digitsValue, hzero]

end TagLedger.Text

namespace TagLedger.Json

open Text

/-! ## Rows of digits -/

/-- What may stand behind a number without going on it. -/
def Stops : List Char → Prop
  | [] => True
  | c :: _ => isAsciiDigit c = false ∧ c ≠ '.' ∧ c ≠ 'e' ∧ c ≠ 'E'

/-- Digits only. -/
def AllDigits (ds : List Char) : Prop := ∀ c ∈ ds, isAsciiDigit c

/-- No digit in front. -/
def NoDigit : List Char → Prop
  | [] => True
  | c :: _ => isAsciiDigit c = false

theorem Stops.noDigit {s : List Char} (h : Stops s) : NoDigit s := by
  cases s with
  | nil => trivial
  | cons c r => exact h.1

theorem allDigits_toDigits (n : Nat) : AllDigits (Nat.toDigits 10 n) :=
  fun _ => isAsciiDigit_of_mem_toDigits

theorem allDigits_zeros (n : Nat) : AllDigits (List.replicate n '0') := by
  intro c hc
  rw [List.eq_of_mem_replicate hc]
  decide

theorem AllDigits.append {a b : List Char} (ha : AllDigits a) (hb : AllDigits b) :
    AllDigits (a ++ b) := by
  intro c hc
  exact (List.mem_append.mp hc).elim (ha c) (hb c)

theorem spanDigits_append {ds rest : List Char} (hd : AllDigits ds) (hr : NoDigit rest) :
    spanDigits (ds ++ rest) = (ds, rest) := by
  have htake : rest.takeWhile isAsciiDigit = [] := by
    cases rest with
    | nil => rfl
    | cons c r => rw [List.takeWhile_cons, show isAsciiDigit c = false from hr]; rfl
  have hdrop : rest.dropWhile isAsciiDigit = rest := by
    cases rest with
    | nil => rfl
    | cons c r => rw [List.dropWhile_cons, show isAsciiDigit c = false from hr]; rfl
  unfold spanDigits
  rw [List.span_eq_takeWhile_dropWhile, List.takeWhile_append_of_pos hd,
    List.dropWhile_append_of_pos hd, htake, hdrop, List.append_nil]

/-- The digits of an integer: a zero alone, or digits that do not start with a zero. -/
inductive Whole : List Char → Prop where
  | zero : Whole ['0']
  | digits {c : Char} {r : List Char} (hc : c ≠ '0') (hd : AllDigits (c :: r)) : Whole (c :: r)

theorem whole_toDigits (n : Nat) : Whole (Nat.toDigits 10 n) := by
  rcases Nat.eq_zero_or_pos n with rfl | hn
  · rw [Nat.toDigits_zero]
    exact .zero
  · cases h : Nat.toDigits 10 n with
    | nil => exact absurd h Nat.toDigits_ne_nil
    | cons c r =>
      refine .digits (head_toDigits_ne_zero (by omega) h) ?_
      rw [← h]
      exact allDigits_toDigits n

theorem readWhole?_append {ds rest : List Char} (hd : Whole ds) (hr : NoDigit rest) :
    readWhole? (ds ++ rest) = some (ds, rest) := by
  cases hd with
  | zero => rfl
  | @digits c r hc hd =>
    have hspan := spanDigits_append hd hr
    unfold readWhole?
    split
    · next h =>
      rw [List.cons_append, List.cons.injEq] at h
      exact absurd h.1 hc
    · rw [hspan]
      rfl

/-! ## Fractions and exponents -/

theorem readFraction_append {ds rest : List Char} (hne : ds ≠ []) (hd : AllDigits ds)
    (hr : NoDigit rest) : readFraction ('.' :: (ds ++ rest)) = (ds, rest) := by
  simp only [readFraction, spanDigits_append hd hr, List.isEmpty_iff, hne, if_false]

theorem readFraction_of_ne {rest : List Char} (h : rest.head? ≠ some '.') :
    readFraction rest = ([], rest) := by
  unfold readFraction
  split
  · simp at h
  · rfl

theorem readExponent_of_stops {rest : List Char} (h : Stops rest) :
    readExponent rest = (none, rest) := by
  unfold readExponent
  simp only
  split
  · exact absurd rfl h.2.2.1
  · exact absurd rfl h.2.2.2
  · rfl

theorem digitsValue_pad (ds : List Char) : digitsValue ('0' :: ds) = digitsValue ds := by
  have h := digitsValue_append (List.replicate 1 '0') ds
  rw [digitsValue_zeros, Nat.zero_mul, Nat.zero_add] at h
  exact h

/-- The digits of an exponent, at least two. -/
def exponentDigits (n : Nat) : List Char :=
  if (Nat.toDigits 10 n).length < 2 then '0' :: Nat.toDigits 10 n else Nat.toDigits 10 n

theorem exponentText_eq (k : Int) :
    Number.exponentText k = 'e' :: (if k < 0 then '-' else '+') :: exponentDigits k.natAbs := rfl

theorem digitsValue_exponentDigits (n : Nat) : digitsValue (exponentDigits n) = n := by
  unfold exponentDigits
  split
  · rw [digitsValue_pad, digitsValue_toDigits]
  · exact digitsValue_toDigits n

theorem allDigits_exponentDigits (n : Nat) : AllDigits (exponentDigits n) := by
  unfold exponentDigits
  split
  · intro c hc
    rcases List.mem_cons.mp hc with rfl | hc
    · decide
    · exact allDigits_toDigits n c hc
  · exact allDigits_toDigits n

theorem exponentDigits_ne_nil (n : Nat) : exponentDigits n ≠ [] := by
  unfold exponentDigits
  split
  · exact List.cons_ne_nil _ _
  · exact Nat.toDigits_ne_nil

theorem readExponent_exponentText (k : Int) {rest : List Char} (hr : NoDigit rest) :
    readExponent (Number.exponentText k ++ rest) = (some k, rest) := by
  have hspan := spanDigits_append (allDigits_exponentDigits k.natAbs) hr
  have hne := exponentDigits_ne_nil k.natAbs
  rw [exponentText_eq, List.cons_append, List.cons_append]
  by_cases hk : k < 0
  · rw [if_pos hk]
    simp only [readExponent, hspan, List.isEmpty_iff, hne, if_false, if_true,
      digitsValue_exponentDigits]
    rw [show -((k.natAbs : Nat) : Int) = k by omega]
  · rw [if_neg hk]
    simp only [readExponent, hspan, List.isEmpty_iff, hne, if_false, Bool.false_eq_true,
      digitsValue_exponentDigits]
    rw [show ((k.natAbs : Nat) : Int) = k by omega]

/-! ## Whole numerals -/

theorem noDigit_point (s : List Char) : NoDigit ('.' :: s) := by
  change isAsciiDigit '.' = false
  decide

theorem noDigit_exponentText (k : Int) (s : List Char) : NoDigit (Number.exponentText k ++ s) := by
  change isAsciiDigit 'e' = false
  decide

theorem head?_stops {s : List Char} (h : Stops s) : s.head? ≠ some '.' := by
  cases s with
  | nil => simp
  | cons c r =>
    intro hc
    exact h.2.1 (Option.some.inj hc)

theorem readMagnitude?_whole (negative : Bool) {ds rest : List Char} (hd : Whole ds)
    (hlimit : ds.length ≤ digitLimit) (hr : Stops rest) :
    readMagnitude? negative (ds ++ rest) =
      some (.ok (.int (if negative then -(digitsValue ds : Int) else digitsValue ds), rest)) := by
  unfold readMagnitude?
  rw [readWhole?_append hd hr.noDigit]
  simp only [readFraction_of_ne (head?_stops hr), readExponent_of_stops hr, readDigits, hlimit,
    if_true, List.isEmpty_nil, Option.isNone_none, Bool.and_self]

theorem readMagnitude?_point (negative : Bool) {ds frac rest : List Char} (hd : Whole ds)
    (hne : frac ≠ []) (hf : AllDigits frac) (hr : Stops rest) :
    readMagnitude? negative (ds ++ '.' :: (frac ++ rest)) =
      some (.ok (.float (Binary64.ofDecimal negative (digitsValue (ds ++ frac))
        (-(frac.length : Int))), rest)) := by
  have hempty : frac.isEmpty = false := List.isEmpty_eq_false_iff.mpr hne
  unfold readMagnitude?
  rw [readWhole?_append hd (noDigit_point _)]
  simp only [readFraction_append hne hf hr.noDigit, readExponent_of_stops hr, hempty,
    Bool.false_and, Bool.false_eq_true, if_false, Option.getD_none, zero_sub]

theorem readMagnitude?_exponent (negative : Bool) {ds rest : List Char} (k : Int) (hd : Whole ds)
    (hr : Stops rest) :
    readMagnitude? negative (ds ++ (Number.exponentText k ++ rest)) =
      some (.ok (.float (Binary64.ofDecimal negative (digitsValue ds) k), rest)) := by
  unfold readMagnitude?
  have hpoint : (Number.exponentText k ++ rest).head? ≠ some '.' := by
    rw [exponentText_eq]
    simp
  rw [readWhole?_append hd (noDigit_exponentText k rest)]
  simp only [readFraction_of_ne hpoint, readExponent_exponentText k hr.noDigit, List.isEmpty_nil,
    Option.isNone_some, Bool.and_false, Bool.false_eq_true, if_false, Option.getD_some,
    List.append_nil, List.length_nil, Nat.cast_zero, sub_zero]

theorem readMagnitude?_pointExponent (negative : Bool) {ds frac rest : List Char} (k : Int)
    (hd : Whole ds) (hne : frac ≠ []) (hf : AllDigits frac) (hr : Stops rest) :
    readMagnitude? negative (ds ++ '.' :: (frac ++ (Number.exponentText k ++ rest))) =
      some (.ok (.float (Binary64.ofDecimal negative (digitsValue (ds ++ frac))
        (k - frac.length)), rest)) := by
  have hempty : frac.isEmpty = false := List.isEmpty_eq_false_iff.mpr hne
  unfold readMagnitude?
  rw [readWhole?_append hd (noDigit_point _)]
  simp only [readFraction_append hne hf (noDigit_exponentText k rest),
    readExponent_exponentText k hr.noDigit, hempty, Bool.false_and, Bool.false_eq_true, if_false,
    Option.getD_some]

/-! ## Signs -/

/-- A numeral with its sign. -/
def signed (negative : Bool) (s : List Char) : List Char := if negative then '-' :: s else s

/-- A digit in front. -/
def StartsDigit (s : List Char) : Prop := ∃ c r, s = c :: r ∧ isAsciiDigit c

theorem Whole.startsDigit {ds : List Char} (h : Whole ds) (s : List Char) :
    StartsDigit (ds ++ s) := by
  cases h with
  | zero => exact ⟨'0', s, rfl, by decide⟩
  | @digits c r hc hd => exact ⟨c, r ++ s, rfl, hd c List.mem_cons_self⟩

theorem startsDigit_of_readMagnitude? {negative : Bool} {s : List Char} {x : Read Json}
    (h : readMagnitude? negative s = some x) : StartsDigit s := by
  cases s with
  | nil =>
    unfold readMagnitude? at h
    simp [readWhole?, spanDigits, List.span_eq_takeWhile_dropWhile] at h
  | cons c r =>
    refine ⟨c, r, rfl, ?_⟩
    by_contra hc
    have h0 : c ≠ '0' := by
      rintro rfl
      exact hc (by decide)
    have hspan : spanDigits (c :: r) = ([], c :: r) := by
      unfold spanDigits
      rw [List.span_eq_takeWhile_dropWhile, List.takeWhile_cons_of_neg hc,
        List.dropWhile_cons_of_neg hc]
    unfold readMagnitude? readWhole? at h
    simp [h0, hspan] at h

theorem digit_ne {c d : Char} (hc : isAsciiDigit c) (hd : isAsciiDigit d = false) : c ≠ d := by
  rintro rfl
  rw [hc] at hd
  exact absurd hd (by decide)

theorem readNumber?_signed (negative : Bool) {s : List Char} (h : StartsDigit s) :
    readNumber? (signed negative s) = readMagnitude? negative s := by
  cases negative with
  | true => rfl
  | false =>
    obtain ⟨c, r, rfl, hc⟩ := h
    change readNumber? (c :: r) = _
    unfold readNumber?
    split
    · next r' h' =>
      rw [List.cons.injEq] at h'
      exact absurd h'.1 (digit_ne hc (by decide))
    · rfl

theorem intDigits_eq (n : Int) : intDigits n = signed (decide (n < 0)) (natDigits n.natAbs) := by
  cases n with
  | ofNat n => rfl
  | negSucc n =>
    rw [decide_eq_true (Int.negSucc_lt_zero n)]
    rfl

/-! ## Numbers with a fraction or an exponent -/

theorem Whole.append_zeros {ds : List Char} (h : Whole ds) {k : Nat} (hk : ds = ['0'] → k = 0) :
    Whole (ds ++ List.replicate k '0') := by
  cases h with
  | zero =>
    rw [hk rfl]
    exact .zero
  | digits hc hd =>
    exact .digits hc (AllDigits.append hd (allDigits_zeros k))

theorem Whole.take {ds : List Char} (h : Whole ds) {k : Nat} (hk : 0 < k) : Whole (ds.take k) := by
  obtain ⟨j, rfl⟩ := Nat.exists_eq_add_of_lt hk
  rw [show 0 + j + 1 = j + 1 by omega]
  cases h with
  | zero =>
    rw [List.take_succ_cons, List.take_nil]
    exact .zero
  | digits hc hd =>
    rw [List.take_succ_cons]
    refine .digits hc fun c hmem => hd c ?_
    exact (List.take_sublist (j + 1) _).subset hmem

/-- A numeral with a point is read as the number with these digits. -/
theorem readMagnitude?_positional (negative : Bool) {m : Nat} {e : Int} (h : m ≠ 0 ∨ e = 0)
    {rest : List Char} (hr : Stops rest) :
    readMagnitude? negative
        (Number.positional (Nat.toDigits 10 m) ((Nat.toDigits 10 m).length + e) ++ rest) =
      some (.ok (.float (Binary64.ofDecimal negative m e), rest)) := by
  have hwhole := whole_toDigits m
  have hall := allDigits_toDigits m
  have hvalue := digitsValue_toDigits m
  have hpos : 0 < (Nat.toDigits 10 m).length := Nat.length_toDigits_pos
  have hzero : Nat.toDigits 10 m = ['0'] → e = 0 := by
    intro h0
    rcases h with hm | he
    · exact absurd rfl (head_toDigits_ne_zero hm h0)
    · exact he
  generalize Nat.toDigits 10 m = ds at *
  unfold Number.positional
  split
  · next hplace =>
    -- zeros between the point and the digits
    have hne : List.replicate (-(ds.length + e)).toNat '0' ++ ds ≠ [] := by
      intro hnil
      rw [List.append_eq_nil_iff] at hnil
      rw [hnil.2] at hpos
      exact absurd hpos (by decide)
    have hread := readMagnitude?_point negative Whole.zero hne
      ((allDigits_zeros _).append hall) hr
    simp only [List.singleton_append] at hread
    rw [digitsValue_pad, digitsValue_append, digitsValue_zeros, hvalue,
      List.length_append, List.length_replicate, Nat.zero_mul, Nat.zero_add] at hread
    rw [show (-(((-(ds.length + e)).toNat + ds.length : Nat) : Int)) = e by omega] at hread
    simpa using hread
  · next hplace =>
    obtain ⟨k, hk⟩ := Int.eq_ofNat_of_zero_le (show 0 ≤ (ds.length : Int) + e by omega)
    simp only [hk, Int.toNat_natCast]
    rcases Nat.lt_or_ge k ds.length with hlt | hge
    · -- the point stands between the digits
      have hdrop : ds.drop k ≠ [] := by
        intro hnil
        rw [List.drop_eq_nil_iff] at hnil
        omega
      have hsub : AllDigits (ds.drop k) := fun c hc => hall c ((List.drop_sublist k ds).subset hc)
      have hread := readMagnitude?_point negative (hwhole.take (show 0 < k by omega)) hdrop hsub hr
      rw [List.take_append_drop, hvalue, List.length_drop] at hread
      rw [show (-((ds.length - k : Nat) : Int)) = e by omega] at hread
      rw [show k - ds.length = 0 by omega]
      simpa [hdrop] using hread
    · -- zeros between the digits and the point
      have hdrop : ds.drop k = [] := List.drop_eq_nil_of_le hge
      have hzeros : ds = ['0'] → k - ds.length = 0 := by
        intro h0
        have := hzero h0
        omega
      have hdot : ['0'] ≠ [] := List.cons_ne_nil _ _
      have hread := readMagnitude?_point negative (hwhole.append_zeros hzeros) hdot
        (allDigits_zeros 1) hr
      have hone : digitsValue ['0'] = 0 := digitsValue_zeros 1
      rw [digitsValue_append, digitsValue_append, digitsValue_zeros, hvalue, hone,
        List.length_replicate, List.length_singleton, Nat.add_zero, Nat.add_zero,
        Nat.mul_assoc, ← pow_add, Binary64.ofDecimal_shift] at hread
      rw [show (-((1 : Nat) : Int)) + ((k - ds.length + 1 : Nat) : Int) = e by omega] at hread
      simpa [hdrop, List.take_of_length_le hge] using hread

/-- A numeral with an exponent is read as the number with these digits. -/
theorem readMagnitude?_scientific (negative : Bool) {m : Nat} (hm : m ≠ 0) (e : Int)
    {rest : List Char} (hr : Stops rest) :
    readMagnitude? negative
        (Number.scientific (Nat.toDigits 10 m) ((Nat.toDigits 10 m).length + e) ++ rest) =
      some (.ok (.float (Binary64.ofDecimal negative m e), rest)) := by
  have hall := allDigits_toDigits m
  have hvalue := digitsValue_toDigits m
  unfold Number.scientific
  cases hds : Nat.toDigits 10 m with
  | nil => exact absurd hds Nat.toDigits_ne_nil
  | cons c r =>
    rw [hds] at hall hvalue
    have hc := head_toDigits_ne_zero hm hds
    have hone : Whole [c] := .digits hc fun d hd => hall d (by simp_all)
    cases r with
    | nil =>
      have hread := readMagnitude?_exponent negative (((1 : Nat) : Int) + e - 1) hone hr
      rw [hvalue, show ((1 : Nat) : Int) + e - 1 = e by omega] at hread
      simpa using hread
    | cons d r =>
      have hfrac : AllDigits (d :: r) := fun x hx => hall x (List.mem_cons_of_mem c hx)
      have hread := readMagnitude?_pointExponent negative
        (((c :: d :: r).length : Int) + e - 1) hone (List.cons_ne_nil d r) hfrac hr
      simp only [List.singleton_append] at hread
      rw [hvalue,
        show ((c :: d :: r).length : Int) + e - 1 - (d :: r).length = e by
          rw [List.length_cons]; omega] at hread
      simpa using hread

/-- The digits of a number, with a point or an exponent. -/
def magnitudeText (x : Finite64) : List Char :=
  let dec := Number.shortest x
  let place : Int := (Nat.toDigits 10 dec.digits).length + dec.exponent
  if -3 ≤ place ∧ place ≤ 16 then Number.positional (Nat.toDigits 10 dec.digits) place
  else Number.scientific (Nat.toDigits 10 dec.digits) place

theorem text_finite (x : Finite64) :
    (Number.text .document (.finite x)).toList = signed x.negative (magnitudeText x) := by
  have hplace : (if x.mantissa = 0 then (1 : Int)
      else (Nat.toDigits 10 (Number.shortest x).digits).length + (Number.shortest x).exponent) =
      (Nat.toDigits 10 (Number.shortest x).digits).length + (Number.shortest x).exponent := by
    by_cases hm : x.mantissa = 0
    · rw [if_pos hm, show Number.shortest x = ⟨0, 0⟩ by simp [Number.shortest, hm]]
      rfl
    · rw [if_neg hm]
  unfold Number.text
  simp only [String.toList_ofList, hplace]
  rfl

theorem readMagnitude?_magnitudeText (x : Finite64) {rest : List Char} (hr : Stops rest) :
    readMagnitude? x.negative (magnitudeText x ++ rest) = some (.ok (.float (.finite x), rest)) := by
  have hreads : Binary64.ofDecimal x.negative (Number.shortest x).digits
      (Number.shortest x).exponent = .finite x := Number.shortest_reads x
  have hzero : (Number.shortest x).digits ≠ 0 ∨ Number.shortest x = ⟨0, 0⟩ := by
    by_cases hm : x.mantissa = 0
    · exact Or.inr (by simp [Number.shortest, hm])
    · exact Or.inl (Number.shortest_digits_ne_zero hm)
  unfold magnitudeText
  simp only
  split
  · next hplace =>
    have h : (Number.shortest x).digits ≠ 0 ∨ (Number.shortest x).exponent = 0 :=
      hzero.imp id fun h0 => by rw [h0]
    rw [readMagnitude?_positional _ h hr, hreads]
  · next hplace =>
    rcases hzero with hm | h0
    · rw [readMagnitude?_scientific _ hm _ hr, hreads]
    · rw [h0] at hplace
      exact absurd (by decide) hplace

theorem signed_append (negative : Bool) (s t : List Char) :
    signed negative s ++ t = signed negative (s ++ t) := by
  unfold signed
  split <;> rfl

/-! ## Words -/

/-- No word starts like a numeral. -/
theorem words_signed (negative : Bool) {s : List Char} (h : StartsDigit s) :
    (words.findSome? fun (w, j) => (after? w.toList (signed negative s)).map fun r => (j, r)) =
      none := by
  obtain ⟨c, r, rfl, hc⟩ := h
  have hne : ∀ d : Char, isAsciiDigit d = false → d ≠ c := fun d hd => (digit_ne hc hd).symm
  cases negative <;>
    simp [words, after?, signed, hne 'n' (by decide), hne 't' (by decide), hne 'f' (by decide),
      hne 'N' (by decide), hne 'I' (by decide), hne '-' (by decide)]

theorem readPlain_signed (negative : Bool) {s : List Char} {x : Read Json}
    (h : readMagnitude? negative s = some x) : readPlain (signed negative s) = x := by
  have hs := startsDigit_of_readMagnitude? h
  unfold readPlain
  rw [words_signed negative hs]
  simp only [readNumber?_signed negative hs, h, Option.getD_some]

/-- An integer within the limit is read back. -/
theorem readPlain_intDigits {n : Int} (hn : (natDigits n.natAbs).length ≤ digitLimit)
    {rest : List Char} (hr : Stops rest) : readPlain (intDigits n ++ rest) = .ok (.int n, rest) := by
  have hvalue : digitsValue (natDigits n.natAbs) = n.natAbs := digitsValue_toDigits _
  have hwhole : Whole (natDigits n.natAbs) := whole_toDigits _
  have hread := readMagnitude?_whole (decide (n < 0)) hwhole hn hr
  rw [intDigits_eq, signed_append, readPlain_signed _ hread, hvalue]
  by_cases h : n < 0
  · simp only [h, decide_true, if_true]
    rw [show -((n.natAbs : Nat) : Int) = n by omega]
  · simp only [h, decide_false, Bool.false_eq_true, if_false]
    rw [show ((n.natAbs : Nat) : Int) = n by omega]

/-- A number with a fraction, an exponent or no digits at all is read back. -/
theorem readPlain_text (x : Binary64) {rest : List Char} (hr : Stops rest) :
    readPlain ((Number.text .document x).toList ++ rest) = .ok (.float x, rest) := by
  cases x with
  | finite x =>
    rw [text_finite, signed_append, readPlain_signed _ (readMagnitude?_magnitudeText x hr)]
  | infinite s => cases s <;> rfl
  | nan => rfl

end TagLedger.Json
