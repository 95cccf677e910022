import Mathlib

/-!
# Division of whole numbers in decimals

A database divides two `NUMERIC`s in decimals: it picks a scale from the sizes of the
operands and rounds the quotient to it, half away from zero. `divScale` is the scale
for whole operands, counted as the server counts it in digits of base 10000.

* `quotient_error`: the quotient is off by no more than half of its last decimal.
* `quotient_relative`: that is less than half a unit of the sixteenth significant digit.
* `quotient_exact_iff`: it is exact iff the true quotient has no more decimals than the scale.
* `roundTo_quotient`: rounding it again, to fewer decimals, gives what rounding the true
  quotient gives, as long as the divisor is smaller than the decimals dropped.
-/
namespace Amarillo.Core

/-- The exponent of the leading base-10000 digit. -/
def numericWeight (n : Nat) : Nat := Nat.log 10000 n

def leadingDigit (n : Nat) : Nat := n / 10000 ^ numericWeight n

/-- The number of decimals of the quotient of two whole numbers: at least sixteen
significant digits, and never less than none or more than 1000. -/
def divScale (n : Int) (d : Nat) : Nat :=
  let qweight : Int := numericWeight n.natAbs - numericWeight d -
    if leadingDigit n.natAbs ≤ leadingDigit d then 1 else 0
  (min 1000 (max 0 (16 - 4 * qweight))).toNat

/-- `n / d` to the nearest whole number, half away from zero. -/
def roundDiv (n : Int) (d : Nat) : Int := n.sign * ((2 * n.natAbs + d) / (2 * d) : Nat)

/-- `n / d` -/
def quotient (n : Int) (d : Nat) : ℚ := roundDiv (n * 10 ^ divScale n d) d / 10 ^ divScale n d

/-- `ROUND(q, places)` -/
def roundTo (places : Nat) (q : ℚ) : ℚ := roundDiv (q.num * 10 ^ places) q.den / 10 ^ places

/-- `n / d` has no more decimals than its scale. -/
def Terminates (n : Int) (d : Nat) : Prop := (d : Int) ∣ n * 10 ^ divScale n d

instance (n : Int) (d : Nat) : Decidable (Terminates n d) := inferInstanceAs (Decidable (_ ∣ _))

/-! ## Rounding -/

section Round
variable {n : Int} {d : Nat}

theorem roundDiv_error (hd : 0 < d) : 2 * |roundDiv n d * d - n| ≤ d := by
  unfold roundDiv
  generalize hr : (2 * n.natAbs + d) / (2 * d) = r
  have hlo : 2 * d * r ≤ 2 * n.natAbs + d := hr ▸ Nat.mul_div_le _ _
  have hhi : 2 * n.natAbs + d < 2 * d * (r + 1) :=
    hr ▸ Nat.lt_mul_div_succ _ (by omega)
  have hmag : 2 * |(r : Int) * d - n.natAbs| ≤ d := by
    rw [show 2 * d * r = 2 * (r * d) by ring] at hlo
    rw [show 2 * d * (r + 1) = 2 * (r * d) + 2 * d by ring] at hhi
    have hlo : 2 * ((r : Int) * d) ≤ 2 * n.natAbs + d := by exact_mod_cast hlo
    have hhi : 2 * (n.natAbs : Int) + d < 2 * ((r : Int) * d) + 2 * d := by exact_mod_cast hhi
    rcases abs_cases ((r : Int) * d - n.natAbs) with ⟨h, -⟩ | ⟨h, -⟩ <;> omega
  rcases lt_trichotomy n 0 with hn | rfl | hn
  · rw [Int.sign_eq_neg_one_of_neg hn]
    rw [Int.ofNat_natAbs_of_nonpos hn.le] at hmag
    rwa [show -1 * (r : Int) * d - n = -(r * d - -n) by ring, abs_neg]
  · simp
  · rw [Int.sign_eq_one_of_pos hn, one_mul]
    rwa [Int.natAbs_of_nonneg hn.le] at hmag

theorem roundDiv_exact_iff (hd : 0 < d) : roundDiv n d * d = n ↔ (d : Int) ∣ n := by
  constructor
  · exact fun h => ⟨roundDiv n d, by rw [mul_comm, h]⟩
  · rintro ⟨k, rfl⟩
    have herr := roundDiv_error (n := d * k) hd
    -- a multiple of `d` that is nearer than `d` is the number itself
    have hfactor : roundDiv (d * k) d * d - d * k = (roundDiv (d * k) d - k) * d := by ring
    rw [hfactor, abs_mul, abs_of_nonneg (Int.natCast_nonneg d)] at herr
    have hzero : |roundDiv (d * k) d - k| = 0 := by
      by_contra hne
      have hone : 1 ≤ |roundDiv (d * k) d - k| := by
        have := abs_nonneg (roundDiv (d * k) d - k)
        omega
      have := Int.mul_le_mul_of_nonneg_right hone (Int.natCast_nonneg d)
      omega
    rw [sub_eq_zero.mp (abs_eq_zero.mp hzero), mul_comm]

theorem roundDiv_neg (n : Int) (d : Nat) : roundDiv (-n) d = -roundDiv n d := by
  simp [roundDiv]

theorem roundDiv_eq_iff (hn : 0 ≤ n) (hd : 0 < d) {r : Int} :
    roundDiv n d = r ↔ (2 * r - 1) * d ≤ 2 * n ∧ 2 * n < (2 * r + 1) * d := by
  have hround : roundDiv n d = (2 * n + d) / (2 * d) := by
    obtain ⟨m, rfl⟩ := Int.eq_ofNat_of_zero_le hn
    rcases Nat.eq_zero_or_pos m with rfl | hm
    · have h : (d : Int) / (2 * d) = 0 := Int.ediv_eq_zero_of_lt (by omega) (by omega)
      simp [roundDiv, h]
    · rw [roundDiv, Int.sign_eq_one_of_pos (by omega)]
      simp
  rw [hround, Int.ediv_eq_iff_of_pos (by omega)]
  constructor
  · rintro ⟨hlo, hhi⟩
    constructor <;> nlinarith
  · rintro ⟨hlo, hhi⟩
    constructor <;> nlinarith

/-- Only the ratio counts. -/
theorem roundDiv_mul_mul {k : Nat} (hk : 0 < k) (hd : 0 < d) :
    roundDiv (n * k) (d * k) = roundDiv n d := by
  wlog hn : 0 ≤ n generalizing n
  · have h := this (n := -n) (by omega)
    rw [neg_mul, roundDiv_neg, roundDiv_neg] at h
    exact neg_injective h
  rw [roundDiv_eq_iff (by positivity) (by positivity)]
  obtain ⟨hlo, hhi⟩ := (roundDiv_eq_iff hn hd).mp rfl
  have hk' : (0 : Int) < k := by exact_mod_cast hk
  push_cast
  constructor <;> nlinarith

/-- Rounding twice is rounding once, when the first step keeps more than the divisor has. -/
theorem roundDiv_roundDiv {b : Nat} (hd : 0 < d) (hb : d < b) (heven : 2 ∣ b) :
    roundDiv (roundDiv (n * b) d) b = roundDiv n d := by
  wlog hn : 0 ≤ n generalizing n
  · have h := this (n := -n) (by omega)
    rw [neg_mul, roundDiv_neg, roundDiv_neg, roundDiv_neg] at h
    exact neg_injective h
  obtain ⟨c, rfl⟩ := heven
  have hnb : 0 ≤ n * (2 * c : Nat) := by positivity
  obtain ⟨hlo, hhi⟩ := (roundDiv_eq_iff hn hd).mp rfl
  obtain ⟨hlo', hhi'⟩ := (roundDiv_eq_iff hnb hd).mp rfl
  generalize roundDiv n d = r at *
  generalize roundDiv (n * (2 * c : Nat)) d = y at *
  have hd' : (0 : Int) < d := by exact_mod_cast hd
  have hc : (0 : Int) < c := by
    have : 0 < c := by omega
    exact_mod_cast this
  have hdc : (d : Int) + 1 ≤ 2 * c := by exact_mod_cast hb
  push_cast at *
  -- half of the way from `r` is a whole number of the finer units
  have hge : (2 * r - 1) * c ≤ y := by
    by_contra hlt
    have hlt : y + 1 ≤ (2 * r - 1) * c := by omega
    nlinarith [mul_le_mul_of_nonneg_right hlt hd'.le, mul_le_mul_of_nonneg_right hlo hc.le]
  have hlt : y < (2 * r + 1) * c := by
    by_contra hge
    have hge : (2 * r + 1) * c ≤ y := by omega
    have hn2 : 2 * n + 1 ≤ (2 * r + 1) * d := by omega
    nlinarith [mul_le_mul_of_nonneg_right hge hd'.le, mul_le_mul_of_nonneg_right hn2 hc.le]
  have hy : 0 ≤ y := by
    by_contra hneg
    have h : (2 * y + 1) * (d : Int) ≤ -1 * d := mul_le_mul_of_nonneg_right (by omega) hd'.le
    have : 0 ≤ n * (2 * c) := by positivity
    nlinarith
  rw [roundDiv_eq_iff hy (by omega)]
  push_cast
  constructor <;> nlinarith

end Round

/-! ## The quotient -/

section Quotient
variable {n : Int} {d : Nat}

theorem quotient_mul_sub (n : Int) (d : Nat) : quotient n d * d - n =
    ((roundDiv (n * 10 ^ divScale n d) d * d - n * 10 ^ divScale n d : Int) : ℚ) /
      10 ^ divScale n d := by
  unfold quotient
  push_cast
  field_simp

theorem quotient_error (hd : 0 < d) : |quotient n d * d - n| ≤ d / (2 * 10 ^ divScale n d) := by
  have h := roundDiv_error (n := n * 10 ^ divScale n d) hd
  have h : 2 * |((roundDiv (n * 10 ^ divScale n d) d * d - n * 10 ^ divScale n d : Int) : ℚ)| ≤ d := by
    exact_mod_cast h
  have hpow : (0 : ℚ) < 10 ^ divScale n d := by positivity
  rw [quotient_mul_sub, abs_div, abs_of_pos hpow, div_le_div_iff₀ hpow (by positivity)]
  nlinarith

theorem quotient_exact_iff (hd : 0 < d) :
    quotient n d * d = n ↔ Terminates n d := by
  rw [Terminates, ← roundDiv_exact_iff hd, ← sub_eq_zero, quotient_mul_sub, div_eq_zero_iff,
    or_iff_left (by positivity), Int.cast_eq_zero, sub_eq_zero]

theorem leadingDigit_le (n : Nat) (hn : n ≠ 0) :
    1 ≤ leadingDigit n ∧ leadingDigit n * 10000 ^ numericWeight n ≤ n :=
  ⟨Nat.div_pos (Nat.pow_log_le_self _ hn) (by positivity), Nat.div_mul_le_self _ _⟩

theorem lt_leadingDigit_succ (n : Nat) :
    n < (leadingDigit n + 1) * 10000 ^ numericWeight n := by
  rw [mul_comm]
  exact Nat.lt_mul_div_succ _ (by positivity)

theorem lt_weight_succ (n : Nat) : n < 10000 ^ (numericWeight n + 1) :=
  Nat.lt_pow_succ_log_self (by norm_num) _

/-- The scale leaves room for sixteen significant digits. -/
theorem sixteen_digits (hn : n ≠ 0) (hd : numericWeight d ≤ 245) :
    d * 10 ^ 16 ≤ n.natAbs * 10 ^ divScale n d := by
  have hnat : n.natAbs ≠ 0 := Int.natAbs_ne_zero.mpr hn
  obtain ⟨hone, hle⟩ := leadingDigit_le n.natAbs hnat
  have hbase (w : Nat) : 10000 ^ w = 10 ^ (4 * w) := by rw [pow_mul]; norm_num
  rw [hbase] at hle
  by_cases hlead : leadingDigit n.natAbs ≤ leadingDigit d
  · have hscale : 16 + 4 * (numericWeight d + 1) ≤ 4 * numericWeight n.natAbs + divScale n d := by
      simp only [divScale, if_pos hlead]
      omega
    have hlt := lt_weight_succ d
    rw [hbase] at hlt
    calc d * 10 ^ 16 ≤ 10 ^ (4 * (numericWeight d + 1)) * 10 ^ 16 :=
          Nat.mul_le_mul_right _ hlt.le
      _ = 10 ^ (16 + 4 * (numericWeight d + 1)) := by rw [← pow_add, Nat.add_comm]
      _ ≤ 10 ^ (4 * numericWeight n.natAbs + divScale n d) :=
          Nat.pow_le_pow_right (by norm_num) hscale
      _ = 1 * 10 ^ (4 * numericWeight n.natAbs) * 10 ^ divScale n d := by rw [pow_add, one_mul]
      _ ≤ leadingDigit n.natAbs * 10 ^ (4 * numericWeight n.natAbs) * 10 ^ divScale n d :=
          Nat.mul_le_mul_right _ (Nat.mul_le_mul_right _ hone)
      _ ≤ n.natAbs * 10 ^ divScale n d := Nat.mul_le_mul_right _ hle
  · have hscale : 16 + 4 * numericWeight d ≤ 4 * numericWeight n.natAbs + divScale n d := by
      simp only [divScale, if_neg hlead]
      omega
    have hlt := lt_leadingDigit_succ d
    rw [hbase] at hlt
    calc d * 10 ^ 16 ≤ (leadingDigit d + 1) * 10 ^ (4 * numericWeight d) * 10 ^ 16 :=
          Nat.mul_le_mul_right _ hlt.le
      _ ≤ leadingDigit n.natAbs * 10 ^ (4 * numericWeight d) * 10 ^ 16 :=
          Nat.mul_le_mul_right _ (Nat.mul_le_mul_right _ (by omega))
      _ = leadingDigit n.natAbs * 10 ^ (16 + 4 * numericWeight d) := by rw [pow_add]; ring
      _ ≤ leadingDigit n.natAbs * 10 ^ (4 * numericWeight n.natAbs + divScale n d) :=
          Nat.mul_le_mul_left _ (Nat.pow_le_pow_right (by norm_num) hscale)
      _ = leadingDigit n.natAbs * 10 ^ (4 * numericWeight n.natAbs) * 10 ^ divScale n d := by
          rw [pow_add, mul_assoc]
      _ ≤ n.natAbs * 10 ^ divScale n d := Nat.mul_le_mul_right _ hle

theorem quotient_relative (hd : 0 < d) (hweight : numericWeight d ≤ 245) :
    |quotient n d * d - n| ≤ |(n : ℚ)| / (2 * 10 ^ 16) := by
  by_cases hn : n = 0
  · subst hn
    simp [quotient, roundDiv]
  · refine (quotient_error hd).trans ?_
    have h : (d : ℚ) * 10 ^ 16 ≤ |(n : ℚ)| * 10 ^ divScale n d := by
      rw [← Int.cast_abs, Int.abs_eq_natAbs]
      exact_mod_cast sixteen_digits hn hweight
    rw [div_le_div_iff₀ (by positivity) (by positivity)]
    linarith

/-- The scale of a quotient below `10000 ^ (k + 1)`. -/
theorem le_divScale {k : Nat} (hk : k ≤ 4) (h : n.natAbs < d * 10000 ^ (k + 1)) :
    16 - 4 * k ≤ divScale n d := by
  by_contra hlt
  rcases eq_or_ne n 0 with rfl | hn
  · simp [divScale, numericWeight, leadingDigit] at hlt
    omega
  have hnat : n.natAbs ≠ 0 := Int.natAbs_ne_zero.mpr hn
  obtain ⟨hone, hle⟩ := leadingDigit_le n.natAbs hnat
  refine absurd h (not_lt.mpr ?_)
  by_cases hlead : leadingDigit n.natAbs ≤ leadingDigit d
  · have hweight : numericWeight d + 1 + (k + 1) ≤ numericWeight n.natAbs := by
      simp only [divScale, if_pos hlead] at hlt
      omega
    calc d * 10000 ^ (k + 1) ≤ 10000 ^ (numericWeight d + 1) * 10000 ^ (k + 1) :=
          Nat.mul_le_mul_right _ (lt_weight_succ d).le
      _ = 10000 ^ (numericWeight d + 1 + (k + 1)) := (pow_add _ _ _).symm
      _ ≤ 10000 ^ numericWeight n.natAbs := Nat.pow_le_pow_right (by norm_num) hweight
      _ ≤ leadingDigit n.natAbs * 10000 ^ numericWeight n.natAbs := Nat.le_mul_of_pos_left _ hone
      _ ≤ n.natAbs := hle
  · have hweight : numericWeight d + (k + 1) ≤ numericWeight n.natAbs := by
      simp only [divScale, if_neg hlead] at hlt
      omega
    calc d * 10000 ^ (k + 1) ≤
          (leadingDigit d + 1) * 10000 ^ numericWeight d * 10000 ^ (k + 1) :=
          Nat.mul_le_mul_right _ (lt_leadingDigit_succ d).le
      _ = (leadingDigit d + 1) * 10000 ^ (numericWeight d + (k + 1)) := by rw [mul_assoc, ← pow_add]
      _ ≤ leadingDigit n.natAbs * 10000 ^ numericWeight n.natAbs :=
          Nat.mul_le_mul (by omega) (Nat.pow_le_pow_right (by norm_num) hweight)
      _ ≤ n.natAbs := hle

theorem roundTo_div {m : Int} (hd : 0 < d) (places : Nat) :
    roundTo places (m / d : ℚ) = roundDiv (m * 10 ^ places) d / 10 ^ places := by
  have hden : (m / d : ℚ).num * d = m * (m / d : ℚ).den := by
    have hq : ((m / d : ℚ).num : ℚ) / (m / d : ℚ).den = m / d := Rat.num_div_den _
    rw [div_eq_div_iff (by positivity) (by positivity)] at hq
    exact_mod_cast hq
  have hpos : 0 < (m / d : ℚ).den := (m / d : ℚ).den_pos
  rw [roundTo, ← roundDiv_mul_mul hd hpos, mul_right_comm, hden, mul_comm (m / d : ℚ).den,
    mul_right_comm, roundDiv_mul_mul hpos hd]

/-- The second rounding does not see the first one. -/
theorem roundTo_quotient (hd : 0 < d) {places : Nat} (drop : Nat) (hdrop : 0 < drop)
    (hscale : places + drop ≤ divScale n d) (hlt : d < 10 ^ drop) :
    roundTo places (quotient n d) = roundDiv (n * 10 ^ places) d / 10 ^ places := by
  obtain ⟨extra, hextra⟩ := Nat.exists_eq_add_of_le hscale
  have hpow : ((10 : ℚ) ^ divScale n d) = ((10 ^ divScale n d : Nat) : ℚ) := by push_cast; rfl
  have hlt' : d < 10 ^ (drop + extra) :=
    hlt.trans_le (Nat.pow_le_pow_right (by norm_num) (Nat.le_add_right _ _))
  have heven : 2 ∣ 10 ^ (drop + extra) := Dvd.dvd.trans (by norm_num) (dvd_pow_self 10 (by omega))
  have hsplit : 10 ^ divScale n d = 10 ^ (drop + extra) * 10 ^ places := by
    rw [hextra, ← pow_add]
    congr 1
    omega
  rw [quotient, hpow, roundTo_div (by positivity)]
  congr 2
  have hR := roundDiv_mul_mul (n := roundDiv (n * 10 ^ divScale n d) d) (d := 10 ^ (drop + extra))
    (k := 10 ^ places) (by positivity) (by positivity)
  push_cast at hR
  rw [hsplit, hR]
  have htwice := roundDiv_roundDiv (n := n * 10 ^ places) hd hlt' heven
  rw [← htwice]
  congr 2
  rw [hextra]
  push_cast
  ring

end Quotient

example : quotient 10 3 = 33333333333333333 / 10 ^ 16 := by decide +kernel

end Amarillo.Core
