import Mathlib.Algebra.Order.Field.Power
import Mathlib.Algebra.Order.Floor.Semifield
import Mathlib.Algebra.Ring.Parity
import Mathlib.Data.Rat.Floor
import Mathlib.Tactic.FieldSimp
import Mathlib.Tactic.Linarith
import Mathlib.Tactic.NormNum
import Mathlib.Tactic.Positivity
import Mathlib.Tactic.Ring

/-! # Rounding to the nearest

Floating-point numbers with `p` bits after the leading one are multiples of powers of two. What number
is rounded decides the power, which is at least `2 ^ least`; of its multiples the nearest is taken, and of
two equally near the even one. `RoundsTo p least y q t` says that `y` becomes `q * 2 ^ t`.

* `abs_sub_le`: how far that is from `y`.
* `lt_two_pow_iff`: which numbers stay below a power of two.
* `mono`: the order is kept. -/

namespace MuchCoolEfi.Cxx.Rounding

/-- `q * 2 ^ t` is the nearest to `y`, which is no negative number. -/
structure RoundsTo (p : ℕ) (least : ℤ) (y : ℚ) (q : ℕ) (t : ℤ) : Prop where
  le_iff : ∀ k : ℕ, k ≤ q ↔
    (k * 2 ^ t : ℚ) < y + 2 ^ t / 2 ∨ (k * 2 ^ t : ℚ) = y + 2 ^ t / 2 ∧ Even k
  least_le : least ≤ t
  lt : y < 2 ^ (t + p + 1)
  normal : t = least ∨ 2 ^ (t + p) ≤ y

theorem two_zpow_pos (t : ℤ) : (0 : ℚ) < 2 ^ t := zpow_pos (by norm_num) t

theorem two_zpow_le {s t : ℤ} (h : s ≤ t) : (2 : ℚ) ^ s ≤ 2 ^ t :=
  zpow_le_zpow_right₀ (by norm_num) h

/-- A power of two in units of another. -/
theorem two_zpow_add (t : ℤ) (n : ℕ) : (2 : ℚ) ^ (t + n) = (2 ^ n : ℕ) * 2 ^ t := by
  rw [zpow_add₀ (by norm_num), zpow_natCast, mul_comm]
  norm_cast

theorem two_zpow_add_succ (t : ℤ) (n : ℕ) : (2 : ℚ) ^ (t + n + 1) = (2 ^ (n + 1) : ℕ) * 2 ^ t := by
  rw [← two_zpow_add, Nat.cast_succ, add_assoc]

namespace RoundsTo

variable {p : ℕ} {least : ℤ} {y y' : ℚ} {q q' : ℕ} {t t' : ℤ}

section One

variable (h : RoundsTo p least y q t)
include h

theorem le_add : (q * 2 ^ t : ℚ) ≤ y + 2 ^ t / 2 := by
  rcases (h.le_iff q).mp le_rfl with hlt | ⟨heq, -⟩
  · exact hlt.le
  · exact heq.le

theorem sub_le : y - 2 ^ t / 2 ≤ q * 2 ^ t := by
  have hn : ¬ ((q + 1 : ℕ) * 2 ^ t : ℚ) < y + 2 ^ t / 2 := fun hlt =>
    Nat.not_succ_le_self q ((h.le_iff (q + 1)).mpr (Or.inl hlt))
  push_cast at hn
  linarith

/-- **At most half a unit off.** -/
theorem abs_sub_le : |(q * 2 ^ t : ℚ) - y| ≤ 2 ^ t / 2 := by
  have h1 := h.le_add
  have h2 := h.sub_le
  rw [abs_le]
  constructor <;> linarith

theorem le_two_pow : q ≤ 2 ^ (p + 1) := by
  have hu := two_zpow_pos t
  have hy := h.lt
  have hle := h.le_add
  rw [two_zpow_add_succ] at hy
  by_contra hq
  have hq : ((2 ^ (p + 1) : ℕ) : ℚ) + 1 ≤ q := by exact_mod_cast Nat.lt_of_not_le hq
  have hm := mul_le_mul_of_nonneg_right hq hu.le
  linarith

theorem mul_le : (q * 2 ^ t : ℚ) ≤ 2 ^ (t + p + 1) := by
  have hq : (q : ℚ) ≤ (2 ^ (p + 1) : ℕ) := by exact_mod_cast h.le_two_pow
  rw [two_zpow_add_succ]
  exact mul_le_mul_of_nonneg_right hq (two_zpow_pos t).le

/-- What is rounded in a unit larger than the least has all `p` bits. -/
theorem two_pow_le (hy : 2 ^ (t + p) ≤ y) : 2 ^ p ≤ q := by
  refine (h.le_iff (2 ^ p)).mpr (Or.inl ?_)
  have hu := two_zpow_pos t
  rw [two_zpow_add] at hy
  linarith

theorem le_mul (hy : 2 ^ (t + p) ≤ y) : (2 ^ (t + p) : ℚ) ≤ q * 2 ^ t := by
  have hq : ((2 ^ p : ℕ) : ℚ) ≤ q := by exact_mod_cast h.two_pow_le hy
  rw [two_zpow_add]
  exact mul_le_mul_of_nonneg_right hq (two_zpow_pos t).le

/-- **The relative error**, where the unit is not the least. -/
theorem abs_sub_le_div (ht : t ≠ least) : |(q * 2 ^ t : ℚ) - y| ≤ y / 2 ^ (p + 1) := by
  refine h.abs_sub_le.trans ?_
  have hy := h.normal.resolve_left ht
  rw [two_zpow_add] at hy
  push_cast at hy
  rw [le_div_iff₀ (by positivity)]
  calc (2 ^ t / 2 * 2 ^ (p + 1) : ℚ) = 2 ^ p * 2 ^ t := by ring
    _ ≤ y := hy

/-- The integer part is less than one off, and the relative error: the least unit is no part of one. -/
theorem abs_floor_sub_lt (hl : least + p + 1 < 0) (hy0 : 0 ≤ y) :
    |(⌊(q * 2 ^ t : ℚ)⌋₊ : ℚ) - y| < 1 + y / 2 ^ (p + 1) := by
  have hr : (0 : ℚ) ≤ q * 2 ^ t := mul_nonneg (Nat.cast_nonneg q) (two_zpow_pos t).le
  have hle := Nat.floor_le hr
  have hlt := Nat.lt_floor_add_one (q * 2 ^ t : ℚ)
  by_cases ht : t = least
  · have hone : (2 : ℚ) ^ (t + p + 1) < 1 := zpow_lt_one_of_neg₀ (by norm_num) (ht ▸ hl)
    have hy := h.lt
    have hq : (q * 2 ^ t : ℚ) < 1 := h.mul_le.trans_lt hone
    rw [Nat.floor_eq_zero.mpr hq, Nat.cast_zero, zero_sub, abs_neg, abs_of_nonneg hy0]
    have hd : 0 ≤ y / 2 ^ (p + 1) := by positivity
    linarith
  · have hd := abs_le.mp (h.abs_sub_le_div ht)
    rw [abs_lt]
    constructor <;> linarith [hd.1, hd.2]

/-- **What stays below a power of two**: all that is not nearer to it than to the number before it. -/
theorem lt_two_pow_iff {E : ℤ} (hE : least + p + 1 ≤ E) :
    (q * 2 ^ t : ℚ) < 2 ^ E ↔ y < 2 ^ E - 2 ^ (E - p - 2) := by
  rcases lt_trichotomy (t + p + 1) E with hlt | heq | hgt
  · have hp := two_zpow_le (show t + p + 1 ≤ E - 1 by omega)
    have hs := two_zpow_le (show E - p - 2 ≤ E - 1 by omega)
    have hd : (2 : ℚ) ^ E = 2 ^ (E - 1) + 2 ^ (E - 1) := by
      rw [← two_mul, ← zpow_one_add₀ (by norm_num), add_sub_cancel]
    have hu := two_zpow_pos (E - 1)
    have hq := h.mul_le
    have hy := h.lt
    exact iff_of_true (by linarith) (by linarith)
  · have hhalf : (2 : ℚ) ^ (E - p - 2) = 2 ^ t / 2 := by
      rw [show E - p - 2 = t - 1 by omega, zpow_sub_one₀ (by norm_num), div_eq_mul_inv]
    have hE2 : (2 : ℚ) ^ E = (2 ^ (p + 1) : ℕ) * 2 ^ t := heq ▸ two_zpow_add_succ t p
    have hev : Even (2 ^ (p + 1)) := by simp [Nat.even_pow]
    have hq : (q * 2 ^ t : ℚ) < 2 ^ E ↔ ¬ 2 ^ (p + 1) ≤ q := by
      rw [hE2, mul_lt_mul_iff_left₀ (two_zpow_pos t), not_le]
      norm_cast
    rw [hq, h.le_iff, hhalf, hE2]
    constructor
    · intro hn
      have h1 := not_lt.mp fun hlt => hn (Or.inl hlt)
      have h2 := h1.lt_of_ne fun he => hn (Or.inr ⟨he.symm, hev⟩)
      linarith
    · rintro hy (hlt | ⟨he, -⟩) <;> linarith
  · have hy := h.normal.resolve_left (by omega)
    have hp := two_zpow_le (show E ≤ t + p by omega)
    have hq := h.le_mul hy
    have hu := two_zpow_pos (E - p - 2)
    exact iff_of_false (by linarith) (by linarith)

end One

/-- Zero stays zero. -/
theorem zero (p : ℕ) (least : ℤ) : RoundsTo p least 0 0 least := by
  have hu := two_zpow_pos least
  refine ⟨fun k => ?_, le_rfl, two_zpow_pos _, Or.inl rfl⟩
  rcases Nat.eq_zero_or_pos k with rfl | hk
  · refine iff_of_true le_rfl (Or.inl ?_)
    rw [Nat.cast_zero, zero_mul, zero_add]
    exact half_pos hu
  · have hk1 : (1 : ℚ) ≤ k := by exact_mod_cast hk
    have hm := mul_le_mul_of_nonneg_right hk1 hu.le
    refine iff_of_false (Nat.not_le.mpr hk) ?_
    rintro (h | ⟨h, -⟩) <;> linarith

/-- **The order is kept.** -/
theorem mono (h : RoundsTo p least y q t) (h' : RoundsTo p least y' q' t') (hy : y ≤ y') :
    (q * 2 ^ t : ℚ) ≤ q' * 2 ^ t' := by
  rcases lt_trichotomy t t' with hlt | rfl | hgt
  · have hl := h.least_le
    calc (q * 2 ^ t : ℚ) ≤ 2 ^ (t + p + 1) := h.mul_le
      _ ≤ 2 ^ (t' + p) := two_zpow_le (by omega)
      _ ≤ q' * 2 ^ t' := h'.le_mul (h'.normal.resolve_left (by omega))
  · have hq : q ≤ q' := by
      refine (h'.le_iff q).mpr ?_
      rcases (h.le_iff q).mp le_rfl with hlt | ⟨he, hev⟩
      · exact Or.inl (by linarith)
      · rcases hy.lt_or_eq with hlt | rfl
        · exact Or.inl (by linarith)
        · exact Or.inr ⟨he, hev⟩
    have hq : (q : ℚ) ≤ q' := by exact_mod_cast hq
    exact mul_le_mul_of_nonneg_right hq (two_zpow_pos t).le
  · have hl := h'.least_le
    have h1 := h.normal.resolve_left (by omega)
    have h2 := two_zpow_le (show t' + p + 1 ≤ t + p by omega)
    have h3 := h'.lt
    linarith

end RoundsTo

end MuchCoolEfi.Cxx.Rounding
