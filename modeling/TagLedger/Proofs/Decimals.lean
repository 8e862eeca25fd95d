import TagLedger.Number.Shortest
import TagLedger.Proofs.Rounding

/-!
# Decimals that read back

The decimal that is written for a finite number is read as the same number.

    ofDecimal s (m * 10 ^ k) e = ofDecimal s m (e + k)                            (ofDecimal_shift)
    ofDecimal x.negative (shortest x).digits (shortest x).exponent = .finite x    (shortest_reads)
-/

namespace TagLedger.Binary64

/-! ## Shifting the point -/

theorem length_toDigits_mul_ten {m : Nat} (hm : m ≠ 0) :
    (Nat.toDigits 10 (m * 10)).length = (Nat.toDigits 10 m).length + 1 := by
  have h := Nat.toDigits_append_toDigits (b := 10) (by decide) (Nat.pos_of_ne_zero hm)
    (show 0 < 10 by decide)
  rw [show m * 10 = 10 * m + 0 by omega, ← h]
  simp

/-- A zero at the end of the digits may be dropped for a greater exponent. -/
theorem ofDecimal_mul_ten (s : Bool) (m : Nat) (e : Int) :
    ofDecimal s (m * 10) e = ofDecimal s m (e + 1) := by
  rcases Nat.eq_zero_or_pos m with rfl | hpos
  · simp [ofDecimal]
  · have hm : m ≠ 0 := by omega
    have hm' : m * 10 ≠ 0 := by omega
    have hsize : e + ((Nat.toDigits 10 (m * 10)).length : Int) =
        e + 1 + ((Nat.toDigits 10 m).length : Int) := by
      rw [length_toDigits_mul_ten hm]
      push_cast
      ring
    unfold ofDecimal
    simp only [hm, hm', if_false, hsize]
    congr 2
    by_cases h0 : 0 ≤ e
    · obtain ⟨k, rfl⟩ := Int.eq_ofNat_of_zero_le h0
      have h1 : (0 : Int) ≤ (k : Int) + 1 := by omega
      rw [if_pos h0, if_pos h1, Int.toNat_natCast, show ((k : Int) + 1).toNat = k + 1 by omega]
      simp only [tenPow_eq]
      rw [pow_succ]
      congr 1
      ring
    · obtain ⟨k, hk⟩ := Int.eq_ofNat_of_zero_le (show 0 ≤ -e - 1 by omega)
      rw [if_neg h0, show (-e).toNat = k + 1 by omega]
      have hten : tenPow (k + 1) = tenPow k * 10 := by simp only [tenPow_eq, pow_succ]
      rw [hten, ofRatio_scale s m (tenPow_pos k) (by decide)]
      by_cases h1 : 0 ≤ e + 1
      · have hk0 : k = 0 := by omega
        rw [if_pos h1, show (e + 1).toNat = 0 by omega, hk0]
        simp [tenPow_eq]
      · rw [if_neg h1, show (-(e + 1)).toNat = k by omega]

/-- Zeros at the end of the digits may be dropped for a greater exponent. -/
theorem ofDecimal_shift (s : Bool) (m k : Nat) (e : Int) :
    ofDecimal s (m * 10 ^ k) e = ofDecimal s m (e + k) := by
  induction k generalizing e with
  | zero => simp
  | succ k ih =>
    rw [pow_succ, ← Nat.mul_assoc, ofDecimal_mul_ten, ih]
    congr 1
    push_cast
    ring

/-- A number whose leading digit is neither very high nor very low is the rounded fraction. -/
theorem ofDecimal_of_size {s : Bool} {m : Nat} {e : Int} (hm : m ≠ 0)
    (hup : e + (Nat.toDigits 10 m).length ≤ 400) (hlow : -400 ≤ e + (Nat.toDigits 10 m).length) :
    ofDecimal s m e =
      if 0 ≤ e then ofRatio s (m * tenPow e.toNat) 1 else ofRatio s m (tenPow (-e).toNat) := by
  unfold ofDecimal
  simp only [hm, if_false]
  rw [if_neg (by omega), if_neg (by omega)]

end TagLedger.Binary64

namespace TagLedger.Number

open Binary64

/-- A decimal that is read as a number. -/
def Decimal.Reads (dec : Decimal) (x : Finite64) : Prop :=
  ofDecimal x.negative dec.digits dec.exponent = .finite x

/-! ## All digits -/

theorem two_pow_le_ten_pow (n : Nat) : 2 ^ (3 * n) ≤ 10 ^ n := by
  rw [pow_mul]
  exact Nat.pow_le_pow_left (by decide) n

theorem exact_reads_of_nonneg {x : Finite64} (hm : x.mantissa ≠ 0) (he : 0 ≤ x.exponent) :
    (exact x).Reads x := by
  obtain ⟨k, hk⟩ := Int.eq_ofNat_of_zero_le he
  have hexact : exact x = ⟨x.mantissa * twoPow x.exponent.toNat, 0⟩ := if_pos he
  have hratio : x.ratio = (x.mantissa * twoPow x.exponent.toNat, 1) := if_pos he
  have hsize : (Nat.toDigits 10 (x.mantissa * twoPow x.exponent.toNat)).length ≤ 400 := by
    rw [Nat.length_toDigits_le_iff (by decide) (by decide), hk, Int.toNat_natCast]
    obtain ⟨hlt, -, hmax, -⟩ := x.normal
    rw [twoPow_eq] at hlt ⊢
    calc x.mantissa * 2 ^ k < 2 ^ 53 * 2 ^ k := Nat.mul_lt_mul_of_pos_right hlt (by positivity)
      _ = 2 ^ (53 + k) := (pow_add 2 53 k).symm
      _ ≤ 2 ^ (3 * (k / 3 + 19)) := Nat.pow_le_pow_right (by decide) (by omega)
      _ ≤ 10 ^ (k / 3 + 19) := two_pow_le_ten_pow _
      _ ≤ 10 ^ 400 := Nat.pow_le_pow_right (by decide) (by omega)
  have hne : x.mantissa * twoPow x.exponent.toNat ≠ 0 :=
    (Nat.mul_pos (Nat.pos_of_ne_zero hm) (twoPow_pos _)).ne'
  have h := ofRatio_ratio x hm
  rw [hratio] at h
  unfold Decimal.Reads
  rw [hexact]
  simp only
  rw [ofDecimal_of_size hne (by omega) (by omega), if_pos (le_refl 0)]
  simpa [tenPow_eq] using h

theorem exact_reads_of_neg {x : Finite64} (hm : x.mantissa ≠ 0) (he : x.exponent < 0) :
    (exact x).Reads x := by
  obtain ⟨k, hk⟩ := Int.eq_ofNat_of_zero_le (show 0 ≤ -x.exponent by omega)
  have hexact : exact x = ⟨x.mantissa * 5 ^ (-x.exponent).toNat, x.exponent⟩ :=
    (if_neg (by omega)).trans (by rw [Nat.pow_eq])
  have hratio : x.ratio = (x.mantissa, twoPow (-x.exponent).toNat) := if_neg (by omega)
  obtain ⟨hlt, hmin, -, -⟩ := x.normal
  rw [hk, Int.toNat_natCast] at hexact hratio
  have hk1 : k ≤ 1074 := by omega
  have hne : x.mantissa * 5 ^ k ≠ 0 :=
    (Nat.mul_pos (Nat.pos_of_ne_zero hm) (by positivity)).ne'
  have hup : (Nat.toDigits 10 (x.mantissa * 5 ^ k)).length ≤ 400 + k := by
    have hm53 : x.mantissa < 10 ^ 53 := lt_of_lt_of_le hlt (Nat.pow_le_pow_left (by decide) 53)
    rw [Nat.length_toDigits_le_iff (by decide) (by omega)]
    calc x.mantissa * 5 ^ k < 10 ^ 53 * 5 ^ k := Nat.mul_lt_mul_of_pos_right hm53 (by positivity)
      _ ≤ 10 ^ 53 * 10 ^ k := Nat.mul_le_mul_left _ (Nat.pow_le_pow_left (by decide) k)
      _ = 10 ^ (53 + k) := (pow_add 10 53 k).symm
      _ ≤ 10 ^ (400 + k) := Nat.pow_le_pow_right (by decide) (by omega)
  have hlow : k < (Nat.toDigits 10 (x.mantissa * 5 ^ k)).length + 401 := by
    by_contra hcon
    have hj0 := Nat.length_toDigits_pos (b := 10) (n := x.mantissa * 5 ^ k)
    obtain ⟨i, hi⟩ := Nat.exists_eq_add_of_le (show k - 401 ≤ k by omega)
    have hpos : 0 < k - 401 := by omega
    have hle : (Nat.toDigits 10 (x.mantissa * 5 ^ k)).length ≤ k - 401 := by omega
    rw [Nat.length_toDigits_le_iff (by decide) hpos] at hle
    have htwo : k - 401 ≤ 2 * i := by omega
    generalize k - 401 = d at *
    have hge : 10 ^ d ≤ x.mantissa * 5 ^ k := by
      calc 10 ^ d = 5 ^ d * 2 ^ d := by rw [← mul_pow, show 5 * 2 = 10 from rfl]
        _ ≤ 5 ^ d * 2 ^ (2 * i) := Nat.mul_le_mul_left _ (Nat.pow_le_pow_right (by decide) htwo)
        _ = 5 ^ d * 4 ^ i := by rw [pow_mul, show 2 ^ 2 = 4 from rfl]
        _ ≤ 5 ^ d * 5 ^ i := Nat.mul_le_mul_left _ (Nat.pow_le_pow_left (by decide) _)
        _ = 5 ^ k := by rw [← pow_add, hi]
        _ ≤ x.mantissa * 5 ^ k := Nat.le_mul_of_pos_left _ (Nat.pos_of_ne_zero hm)
    omega
  have h := ofRatio_ratio x hm
  rw [hratio] at h
  unfold Decimal.Reads
  rw [hexact]
  simp only
  rw [ofDecimal_of_size hne (by omega) (by omega), if_neg (by omega), hk, Int.toNat_natCast]
  have hten : tenPow k = twoPow k * 5 ^ k := by
    rw [tenPow_eq, twoPow_eq, ← mul_pow, show 2 * 5 = 10 from rfl]
  rw [hten, ofRatio_scale _ _ (twoPow_pos k) (by positivity)]
  exact h

theorem exact_reads {x : Finite64} (hm : x.mantissa ≠ 0) : (exact x).Reads x := by
  rcases Int.lt_or_le x.exponent 0 with he | he
  · exact exact_reads_of_neg hm he
  · exact exact_reads_of_nonneg hm he

/-! ## The shortest digits -/

theorem onGrid?_reads {x : Finite64} {e : Int} {dec : Decimal} (h : onGrid? x e = some dec) :
    dec.Reads x := by
  -- whichever of the two neighbours is tried first
  have tried : ∀ a b : Nat,
      (if decide (ofDecimal x.negative a e = .finite x) then some (⟨a, e⟩ : Decimal)
        else if decide (ofDecimal x.negative b e = .finite x) then some ⟨b, e⟩ else none) =
        some dec → dec.Reads x := by
    intro a b h
    split at h
    · next ha =>
      rw [← Option.some.inj h]
      exact of_decide_eq_true (p := ofDecimal x.negative a e = .finite x) ha
    · split at h
      · next hb =>
        rw [← Option.some.inj h]
        exact of_decide_eq_true (p := ofDecimal x.negative b e = .finite x) hb
      · cases h
  exact tried _ _ h

theorem firstGrid_reads {x : Finite64} (hm : x.mantissa ≠ 0) (fuel : Nat) (e : Int) :
    (firstGrid x fuel e).Reads x := by
  induction fuel generalizing e with
  | zero => exact exact_reads hm
  | succ fuel ih =>
    unfold firstGrid
    cases h : onGrid? x e with
    | none => exact ih (e - 1)
    | some dec => exact onGrid?_reads h

theorem stripZeros_reads {x : Finite64} (fuel : Nat) {dec : Decimal} (h : dec.Reads x) :
    (stripZeros fuel dec).Reads x := by
  induction fuel generalizing dec with
  | zero => exact h
  | succ fuel ih =>
    unfold stripZeros
    split
    · next hz =>
      simp only [Bool.and_eq_true, decide_eq_true_eq] at hz
      refine ih ?_
      unfold Decimal.Reads at h ⊢
      simp only
      rw [← ofDecimal_mul_ten, Nat.div_mul_cancel (Nat.dvd_of_mod_eq_zero hz.1)]
      exact h
    · exact h

/-- The decimal that is written is read as the number. -/
theorem shortest_reads (x : Finite64) : (shortest x).Reads x := by
  unfold shortest
  split
  · next hm =>
    unfold Decimal.Reads
    simp only
    rw [← zero_eq x hm]
    rfl
  · next hm => exact stripZeros_reads 20 (firstGrid_reads hm _ _)

theorem firstGrid_digits_ne_zero {x : Finite64} (hm : x.mantissa ≠ 0) {dec : Decimal}
    (h : dec.Reads x) : dec.digits ≠ 0 := by
  intro h0
  unfold Decimal.Reads ofDecimal at h
  rw [h0, if_pos rfl] at h
  have := congrArg Binary64.isZero h
  simp [Binary64.zero, Binary64.isZero, hm] at this

/-- Only zero is written with the digit zero in front. -/
theorem shortest_digits_ne_zero {x : Finite64} (hm : x.mantissa ≠ 0) : (shortest x).digits ≠ 0 :=
  firstGrid_digits_ne_zero hm (shortest_reads x)

end TagLedger.Number
