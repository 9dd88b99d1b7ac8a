import Mathlib.Algebra.Order.Floor.Semiring
import Mathlib.Data.Rat.Floor
import Mathlib.Tactic.FieldSimp
import Mathlib.Tactic.Linarith
import Mathlib.Tactic.NormNum
import Mathlib.Tactic.Positivity
import Mathlib.Tactic.Ring

namespace TorrentServer.Library.DecimalRounding

/-- The value of a text of decimal digits with a point among them. -/
def fractionValue (text : String) : ℚ :=
  let whole := text.toList.takeWhile (· ≠ '.')
  let places := (text.toList.dropWhile (· ≠ '.')).drop 1
  Nat.ofDigitChars 10 (whole ++ places) 0 / 10 ^ places.length

/-- A non-negative decimal number with at most `digits` significant digits. -/
def Representable (digits : ℕ) (z : ℚ) : Prop :=
  ∃ (coefficient : ℕ) (exponent : ℤ),
    coefficient < 10 ^ digits ∧ z = coefficient * 10 ^ exponent

/-- What every rounding to `digits` significant digits does, whichever way it
rounds: no representable number comes to lie on the other side of it. -/
structure Rounded (digits : ℕ) (x y : ℚ) : Prop where
  le_of_le : ∀ z, Representable digits z → z ≤ x → z ≤ y
  ge_of_ge : ∀ z, Representable digits z → x ≤ z → y ≤ z

/-- `y` is `x` kept to `places` decimal places, cut off or rounded. -/
def KeptTo (places : ℕ) (x y : ℚ) : Prop :=
  ∃ k : ℕ, y = k / 10 ^ places ∧ |y - x| < 1 / 10 ^ places

variable {digits : ℕ} {x y : ℚ}

theorem Rounded.eq (h : Rounded digits x y) (hx : Representable digits x) : y = x :=
  le_antisymm (h.ge_of_ge x hx le_rfl) (h.le_of_le x hx le_rfl)

theorem representable_div_pow {n : ℕ} (places : ℕ) (hn : n < 10 ^ digits) :
    Representable digits (n / 10 ^ places) := by
  refine ⟨n, -places, hn, ?_⟩
  rw [zpow_neg, zpow_natCast, div_eq_mul_inv]

theorem Rounded.nonneg (h : Rounded digits x y) (hx : 0 ≤ x) : 0 ≤ y := by
  have hzero : Representable digits 0 := ⟨0, 0, by positivity, by simp⟩
  exact h.le_of_le 0 hzero hx

theorem Rounded.le_of_le_div {n places : ℕ} (h : Rounded digits x y) (hn : n < 10 ^ digits)
    (hx : x * 10 ^ places ≤ n) : y * 10 ^ places ≤ n := by
  have hpos : (0 : ℚ) < 10 ^ places := by positivity
  rw [← le_div_iff₀ hpos] at hx ⊢
  exact h.ge_of_ge _ (representable_div_pow places hn) hx

theorem Rounded.ge_of_div_le {n places : ℕ} (h : Rounded digits x y) (hn : n < 10 ^ digits)
    (hx : n ≤ x * 10 ^ places) : n ≤ y * 10 ^ places := by
  have hpos : (0 : ℚ) < 10 ^ places := by positivity
  rw [← div_le_iff₀ hpos] at hx ⊢
  exact h.le_of_le _ (representable_div_pow places hn) hx

theorem KeptTo.nonneg {places : ℕ} (h : KeptTo places x y) : 0 ≤ y := by
  obtain ⟨k, rfl, -⟩ := h
  positivity

section Scaled

variable {amount places extra : ℕ} {v : ℚ}

theorem KeptTo.exists_multiple (h : KeptTo places (amount / 10 ^ (places + extra)) v) :
    ∃ m : ℕ, 10 ^ extra ∣ m ∧ v * 10 ^ (places + extra) = m ∧
      |(m : ℚ) - amount| < 10 ^ extra := by
  obtain ⟨k, rfl, hclose⟩ := h
  have hplaces : (0 : ℚ) < 10 ^ places := by positivity
  have hextra : (0 : ℚ) < 10 ^ extra := by positivity
  refine ⟨k * 10 ^ extra, Dvd.intro_left k rfl, ?_, ?_⟩
  · rw [pow_add]
    push_cast
    field_simp
  · have hdiff : (k : ℚ) / 10 ^ places - amount / 10 ^ (places + extra) =
        (k * 10 ^ extra - amount) / (10 ^ places * 10 ^ extra) := by
      rw [pow_add]
      field_simp
    rw [hdiff, abs_div, abs_of_pos (mul_pos hplaces hextra), div_lt_div_iff₀ (by positivity)
      hplaces] at hclose
    push_cast
    nlinarith

theorem KeptTo.eq_of_dvd (h : KeptTo places (amount / 10 ^ (places + extra)) v)
    (hdvd : 10 ^ extra ∣ amount) : v * 10 ^ (places + extra) = amount := by
  obtain ⟨m, hm, hv, hclose⟩ := h.exists_multiple
  obtain ⟨j, rfl⟩ := hdvd
  obtain ⟨k, rfl⟩ := hm
  have hextra : (0 : ℚ) < 10 ^ extra := by positivity
  have hkj : |((k : ℤ) - j : ℤ)| < 1 := by
    have hcast : |((k : ℚ) - j)| < 1 := by
      push_cast at hclose
      rw [← mul_sub, abs_mul, abs_of_pos hextra] at hclose
      exact (mul_lt_iff_lt_one_right hextra).mp hclose
    exact_mod_cast hcast
  obtain rfl : k = j := by
    rw [Int.abs_lt_one_iff] at hkj
    omega
  exact hv

variable {total : ℕ} {r : ℚ}

theorem floor_quotient_of_dvd (hr : 0 < r) (hamount : (amount : ℚ) = total * r)
    (hkept : KeptTo places (amount / 10 ^ (places + extra)) v) (hround : Rounded digits (v / r) y)
    (htotal : total < 10 ^ digits) (hdvd : 10 ^ extra ∣ amount) :
    ⌊y * 10 ^ (places + extra)⌋₊ = total := by
  have hpow : (10 : ℚ) ^ (places + extra) ≠ 0 := by positivity
  have hquotient : v / r = total / 10 ^ (places + extra) := by
    rw [div_eq_div_iff hr.ne' hpow, hkept.eq_of_dvd hdvd, hamount]
  rw [hquotient] at hround
  rw [hround.eq (representable_div_pow _ htotal), div_mul_cancel₀ _ hpow, Nat.floor_natCast]

/-- A quotient of an amount that had to be cut off misses the exact total, by less
than `slack`. -/
theorem floor_quotient_of_not_dvd (slack : ℕ) (hr : 0 < r) (hr' : r ≤ 1)
    (hamount : (amount : ℚ) = total * r)
    (hkept : KeptTo places (amount / 10 ^ (places + extra)) v) (hround : Rounded digits (v / r) y)
    (hslack : (10 : ℚ) ^ extra ≤ slack * r) (htotal : total + slack < 10 ^ digits)
    (hdvd : ¬ 10 ^ extra ∣ amount) :
    ⌊y * 10 ^ (places + extra)⌋₊ ≠ total ∧ ⌊y * 10 ^ (places + extra)⌋₊ ≤ total + slack := by
  obtain ⟨m, hm, hv, hclose⟩ := hkept.exists_multiple
  have hquotient : v / r * 10 ^ (places + extra) = m / r := by
    rw [← hv]
    ring
  have hbounds := abs_lt.mp hclose
  have hupper : v / r * 10 ^ (places + extra) ≤ (total + slack : ℕ) := by
    rw [hquotient, div_le_iff₀ hr]
    push_cast
    linarith
  rcases lt_trichotomy m amount with hlt | rfl | hgt
  · have hle : (m : ℚ) + 1 ≤ amount := by exact_mod_cast hlt
    have hpos : 0 < total := by
      refine Nat.pos_of_ne_zero fun hzero => ?_
      rw [hzero, Nat.cast_zero, zero_mul] at hamount
      have hnonneg : (0 : ℚ) ≤ m := Nat.cast_nonneg m
      linarith
    have hbelow : v / r * 10 ^ (places + extra) ≤ (total - 1 : ℕ) := by
      rw [hquotient, div_le_iff₀ hr, Nat.cast_pred hpos]
      linarith
    have hfloor := Nat.floor_le_of_le (hround.le_of_le_div (by omega) hbelow)
    omega
  · exact absurd hm hdvd
  · have hge : (amount : ℚ) + 1 ≤ m := by exact_mod_cast hgt
    have hslackPos : 0 < slack := by
      refine Nat.pos_of_ne_zero fun hzero => ?_
      rw [hzero, Nat.cast_zero, zero_mul] at hslack
      have hextra : (0 : ℚ) < 10 ^ extra := by positivity
      linarith
    have habove : (total + 1 : ℕ) ≤ v / r * 10 ^ (places + extra) := by
      rw [hquotient, le_div_iff₀ hr]
      push_cast
      linarith
    have hfloor := Nat.le_floor (hround.ge_of_div_le (by omega) habove)
    exact ⟨by omega, Nat.floor_le_of_le (hround.le_of_le_div htotal hupper)⟩

end Scaled

end TorrentServer.Library.DecimalRounding
