import Mathlib.Algebra.Order.Field.Power
import Mathlib.Algebra.Order.Field.Rat
import Mathlib.Data.Rat.Cast.Order
import Mathlib.Tactic.FieldSimp
import Mathlib.Tactic.Linarith
import Mathlib.Tactic.Positivity
import Mathlib.Tactic.Ring
import TagLedger.Number.Binary64

/-!
# Rounding

Rounding depends on the value of a fraction alone, and keeps a value that the format has.

    ofRatio s (a * c) (b * c) = ofRatio s a b                            (ofRatio_scale)
    x.ratio = (n, d) → ofRatio x.negative n d = .finite x                (ofRatio_ratio)
-/

namespace TagLedger.Binary64

theorem twoPow_eq (n : Nat) : twoPow n = 2 ^ n := rfl

theorem tenPow_eq (n : Nat) : tenPow n = 10 ^ n := rfl

theorem twoPow_pos (n : Nat) : 0 < twoPow n := by rw [twoPow_eq]; positivity

theorem tenPow_pos (n : Nat) : 0 < tenPow n := by rw [tenPow_eq]; positivity

/-! ## Scaling a fraction -/

theorem divNearest_mul {c : Nat} (hc : 0 < c) (n d : Nat) :
    divNearest (n * c) (d * c) = divNearest n d := by
  have hq : n * c / (d * c) = n / d := Nat.mul_div_mul_right n d hc
  have hr : n * c % (d * c) = n % d * c := Nat.mul_mod_mul_right c n d
  have h1 : 2 * (n % d * c) < d * c ↔ 2 * (n % d) < d := by
    rw [← Nat.mul_assoc]
    exact Nat.mul_lt_mul_right hc
  have h2 : 2 * (n % d * c) = d * c ↔ 2 * (n % d) = d := by
    rw [← Nat.mul_assoc]
    exact Nat.mul_left_inj (by omega)
  unfold divNearest
  simp only [hq, hr, h1, h2]

theorem divNearest_exact {d : Nat} (hd : 0 < d) (m : Nat) : divNearest (m * d) d = m := by
  unfold divNearest
  simp [Nat.mul_div_cancel m hd, hd]

theorem scaleDown_scale (a b c : Nat) (e : Int) :
    scaleDown (a * c) (b * c) e = ((scaleDown a b e).1 * c, (scaleDown a b e).2 * c) := by
  unfold scaleDown
  split
  · simp only [Prod.mk.injEq, true_and]
    ring
  · simp only [Prod.mk.injEq, and_true]
    ring

theorem scaleDown_pos {b : Nat} (hb : 0 < b) (a : Nat) (e : Int) : 0 < (scaleDown a b e).2 := by
  unfold scaleDown
  split
  · exact Nat.mul_pos hb (twoPow_pos _)
  · exact hb

/-- Scaling down divides the value by a power of two. -/
theorem scaleDown_value {b : Nat} (hb : 0 < b) (a : Nat) (e : Int) :
    ((scaleDown a b e).1 : ℚ) = (a : ℚ) / b / 2 ^ e * (scaleDown a b e).2 := by
  have hb' : (b : ℚ) ≠ 0 := by positivity
  unfold scaleDown
  split
  · next h =>
    obtain ⟨k, rfl⟩ := Int.eq_ofNat_of_zero_le h
    simp only [twoPow_eq, Int.toNat_natCast, Nat.cast_mul, Nat.cast_pow, Nat.cast_ofNat,
      zpow_natCast]
    field_simp
  · next h =>
    obtain ⟨k, hk⟩ := Int.eq_ofNat_of_zero_le (show 0 ≤ -e by omega)
    have he : e = -(k : Int) := by omega
    subst he
    simp only [twoPow_eq, neg_neg, Int.toNat_natCast, Nat.cast_mul, Nat.cast_pow, Nat.cast_ofNat,
      zpow_neg, zpow_natCast]
    field_simp

/-! ## The exponent -/

/-- The exponent at which a value has 53 bits before the point is the only one. -/
theorem exponent_unique {q : ℚ} {e f : Int} (he : 2 ^ (52 + e) ≤ q) (he' : q < 2 ^ (53 + e))
    (hf : 2 ^ (52 + f) ≤ q) (hf' : q < 2 ^ (53 + f)) : e = f := by
  have h1 : (2 : ℚ) ^ (52 + e) < 2 ^ (53 + f) := lt_of_le_of_lt he hf'
  have h2 : (2 : ℚ) ^ (52 + f) < 2 ^ (53 + e) := lt_of_le_of_lt hf he'
  rw [zpow_lt_zpow_iff_right₀ (by norm_num)] at h1 h2
  omega

theorem log2_bounds {n : Nat} (hn : 0 < n) :
    (2 : ℚ) ^ (Nat.log2 n : Int) ≤ n ∧ (n : ℚ) < 2 ^ ((Nat.log2 n : Int) + 1) := by
  have h1 : 2 ^ Nat.log2 n ≤ n := Nat.log2_self_le (by omega)
  have h2 : n < 2 ^ (Nat.log2 n + 1) := Nat.lt_log2_self
  constructor
  · rw [zpow_natCast]
    exact_mod_cast h1
  · have : ((Nat.log2 n : Int) + 1) = ((Nat.log2 n + 1 : Nat) : Int) := by push_cast; ring
    rw [this, zpow_natCast]
    exact_mod_cast h2

/-- The exponent that the lengths of numerator and denominator suggest. -/
def guess (a b : Nat) : Int := (Nat.log2 a : Int) - Nat.log2 b - 52

theorem exponentFor_eq (a b : Nat) :
    exponentFor a b =
      max (if (scaleDown a b (guess a b)).1 / (scaleDown a b (guess a b)).2 < twoPow 52 then
        guess a b - 1 else guess a b) (-1074) := rfl

/-- Before the least exponent is enforced, the exponent leaves 53 bits before the point. -/
theorem exponentFor_spec {a b : Nat} (ha : 0 < a) (hb : 0 < b) :
    ∃ e : Int, exponentFor a b = max e (-1074) ∧
      2 ^ (52 + e) ≤ (a : ℚ) / b ∧ (a : ℚ) / b < 2 ^ (53 + e) := by
  obtain ⟨ha1, ha2⟩ := log2_bounds ha
  obtain ⟨hb1, hb2⟩ := log2_bounds hb
  have hb' : (0 : ℚ) < b := by positivity
  have two : ∀ z : Int, (0 : ℚ) < 2 ^ z := fun z => by positivity
  generalize he : guess a b = e
  have hdef : e = (Nat.log2 a : Int) - Nat.log2 b - 52 := he.symm
  have hlow : (2 : ℚ) ^ (51 + e) ≤ (a : ℚ) / b := by
    rw [le_div_iff₀ hb']
    calc (2 : ℚ) ^ (51 + e) * b ≤ 2 ^ (51 + e) * 2 ^ ((Nat.log2 b : Int) + 1) :=
          mul_le_mul_of_nonneg_left hb2.le (two _).le
      _ = 2 ^ (Nat.log2 a : Int) := by
          rw [← zpow_add₀ (by norm_num)]
          congr 1
          omega
      _ ≤ a := ha1
  have hhigh : (a : ℚ) / b < 2 ^ (53 + e) := by
    rw [div_lt_iff₀ hb']
    calc (a : ℚ) < 2 ^ ((Nat.log2 a : Int) + 1) := ha2
      _ = 2 ^ (53 + e) * 2 ^ (Nat.log2 b : Int) := by
          rw [← zpow_add₀ (by norm_num)]
          congr 1
          omega
      _ ≤ 2 ^ (53 + e) * b := mul_le_mul_of_nonneg_left hb1 (two _).le
  have hd : (0 : ℚ) < (scaleDown a b e).2 := by exact_mod_cast scaleDown_pos hb a e
  have hlt : (scaleDown a b e).1 / (scaleDown a b e).2 < twoPow 52 ↔ (a : ℚ) / b < 2 ^ (52 + e) := by
    rw [Nat.div_lt_iff_lt_mul (scaleDown_pos hb a e), twoPow_eq, ← Nat.cast_lt (α := ℚ),
      Nat.cast_mul, scaleDown_value hb, mul_lt_mul_iff_left₀ hd, div_lt_iff₀ (two e),
      zpow_add₀ (by norm_num)]
    norm_cast
  by_cases h : (scaleDown a b e).1 / (scaleDown a b e).2 < twoPow 52
  · refine ⟨e - 1, ?_, ?_, ?_⟩
    · rw [exponentFor_eq, he, if_pos h]
    · rw [show 52 + (e - 1) = 51 + e by omega]
      exact hlow
    · rw [show 53 + (e - 1) = 52 + e by omega]
      exact hlt.mp h
  · refine ⟨e, ?_, ?_, hhigh⟩
    · rw [exponentFor_eq, he, if_neg h]
    · exact not_lt.mp fun h' => h (hlt.mpr h')

theorem exponentFor_scale {a b c : Nat} (ha : 0 < a) (hb : 0 < b) (hc : 0 < c) :
    exponentFor (a * c) (b * c) = exponentFor a b := by
  obtain ⟨e, he, h1, h2⟩ := exponentFor_spec ha hb
  obtain ⟨f, hf, h3, h4⟩ := exponentFor_spec (Nat.mul_pos ha hc) (Nat.mul_pos hb hc)
  have hq : ((a * c : Nat) : ℚ) / ((b * c : Nat) : ℚ) = (a : ℚ) / b := by
    have hc' : (c : ℚ) ≠ 0 := by positivity
    push_cast
    exact mul_div_mul_right _ _ hc'
  rw [hq] at h3 h4
  rw [he, hf, exponent_unique h3 h4 h1 h2]

/-- Rounding does not see a common factor. -/
theorem ofRatio_scale (s : Bool) (a : Nat) {b c : Nat} (hb : 0 < b) (hc : 0 < c) :
    ofRatio s (a * c) (b * c) = ofRatio s a b := by
  rcases Nat.eq_zero_or_pos a with rfl | ha
  · simp [ofRatio]
  · have ha0 : a ≠ 0 := by omega
    have hac : a * c ≠ 0 := (Nat.mul_pos ha hc).ne'
    unfold ofRatio
    simp only [ha0, hac, if_false, exponentFor_scale ha hb hc, scaleDown_scale, divNearest_mul hc]

/-! ## Values of the format -/

theorem ratio_pos (x : Finite64) : 0 < x.ratio.2 := by
  unfold Finite64.ratio
  split
  · exact Nat.one_pos
  · exact twoPow_pos _

theorem ratio_value (x : Finite64) : (x.ratio.1 : ℚ) / x.ratio.2 = x.mantissa * 2 ^ x.exponent := by
  unfold Finite64.ratio
  split
  · next h =>
    obtain ⟨k, hk⟩ := Int.eq_ofNat_of_zero_le h
    simp [hk, twoPow_eq]
  · next h =>
    obtain ⟨k, hk⟩ := Int.eq_ofNat_of_zero_le (show 0 ≤ -x.exponent by omega)
    have he : x.exponent = -(k : Int) := by omega
    simp [he, twoPow_eq, div_eq_mul_inv]

/-- A value of the format has its own exponent. -/
theorem exponentFor_ratio (x : Finite64) (hm : x.mantissa ≠ 0) :
    exponentFor x.ratio.1 x.ratio.2 = x.exponent := by
  have hpos : 0 < x.ratio.1 := by
    unfold Finite64.ratio
    split
    · exact Nat.mul_pos (by omega) (twoPow_pos _)
    · exact Nat.pos_of_ne_zero hm
  obtain ⟨e, he, h1, h2⟩ := exponentFor_spec hpos (ratio_pos x)
  rw [ratio_value] at h1 h2
  obtain ⟨hlt, hmin, -, hfull⟩ := x.normal
  have hp : (0 : ℚ) < 2 ^ x.exponent := by positivity
  have hup : (x.mantissa : ℚ) * 2 ^ x.exponent < 2 ^ (53 + x.exponent) := by
    rw [zpow_add₀ (by norm_num)]
    refine mul_lt_mul_of_pos_right ?_ hp
    rw [twoPow_eq] at hlt
    exact_mod_cast hlt
  rw [he]
  rcases hfull with hfull | hleast
  · have hdown : (2 : ℚ) ^ (52 + x.exponent) ≤ x.mantissa * 2 ^ x.exponent := by
      rw [zpow_add₀ (by norm_num)]
      refine mul_le_mul_of_nonneg_right ?_ hp.le
      rw [twoPow_eq] at hfull
      exact_mod_cast hfull
    rw [exponent_unique h1 h2 hdown hup]
    omega
  · -- a number at the least exponent may have fewer bits, and is then held there
    have hle : 52 + e < 53 + x.exponent := by
      rw [← zpow_lt_zpow_iff_right₀ (show (1 : ℚ) < 2 by norm_num)]
      exact lt_of_le_of_lt h1 hup
    omega

theorem scaleDown_ratio (x : Finite64) :
    (scaleDown x.ratio.1 x.ratio.2 x.exponent).1 =
      x.mantissa * (scaleDown x.ratio.1 x.ratio.2 x.exponent).2 := by
  unfold scaleDown Finite64.ratio
  split <;> simp

theorem ofParts_self (x : Finite64) : ofParts x.negative x.mantissa x.exponent = .finite x := by
  unfold ofParts
  rw [dif_pos x.normal]

/-- A value of the format is kept. -/
theorem ofRatio_ratio (x : Finite64) (hm : x.mantissa ≠ 0) :
    ofRatio x.negative x.ratio.1 x.ratio.2 = .finite x := by
  have hpos : x.ratio.1 ≠ 0 := by
    unfold Finite64.ratio
    split
    · exact (Nat.mul_pos (by omega) (twoPow_pos _)).ne'
    · exact hm
  have hm53 : x.mantissa ≠ twoPow 53 := x.normal.1.ne
  unfold ofRatio
  simp only [hpos, if_false, exponentFor_ratio x hm, scaleDown_ratio,
    divNearest_exact (scaleDown_pos (ratio_pos x) _ _), hm53]
  exact ofParts_self x

theorem zero_eq (x : Finite64) (hm : x.mantissa = 0) : zero x.negative = .finite x := by
  obtain ⟨s, m, e, h⟩ := x
  simp only at hm
  subst hm
  have he : e = -1074 := by
    rcases h.2.2.2 with h | h
    · exact absurd h (by decide)
    · exact h
  subst he
  rfl

end TagLedger.Binary64
