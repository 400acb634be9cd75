import Mathlib
import MuchCoolEfi.Cxx.Binary32
import MuchCoolEfi.Cxx.Rounding

/-! # Scaling, in numbers

`Float32` computes with bits: a product is shifted bit by bit, rounded by the last two that were shifted
out, and packed. It is the number nearest to the product (`exists_roundsTo`). So it is known when scaling
and converting is defined (`scaled?_isSome_iff`), how exact it is (`abs_scaled?_sub_lt`), and that it
keeps the order (`scaled?_mono`). -/

namespace MuchCoolEfi.Cxx.Scaling

open Float.Model (Format UnpackedFloat totalExponent)
open Float.Model.UnpackedFloat MuchCoolEfi.Cxx.Binary32 MuchCoolEfi.Cxx.Rounding

/-! ### Shifting -/

/-- `P` shifted to the right by `n`, with what is left of the bits shifted out. -/
def shifted (P n : ℕ) : ExtendedMantissa := ExtendedMantissa.ofMantissaAndAccuracy P .exact >>> n

/-- **The two bits**: the last one shifted out, and whether any before it was set. -/
theorem shifted_succ (P : ℕ) : ∀ n : ℕ,
    shifted P (n + 1) = ⟨P / 2 ^ (n + 1), P / 2 ^ n % 2 != 0, P % 2 ^ n != 0⟩
  | 0 => by simp [shifted, HShiftRight.hShiftRight, Nat.repeat, ExtendedMantissa.shiftRightOne,
      ExtendedMantissa.ofMantissaAndAccuracy, Nat.mod_one]
  | n + 1 => by
    have ih := shifted_succ P n
    have hs : shifted P (n + 1 + 1) = (shifted P (n + 1)).shiftRightOne := rfl
    have hd : P / 2 ^ (n + 1) = P / 2 ^ n / 2 := by rw [pow_succ, Nat.div_div_eq_div_mul]
    have hm : P % 2 ^ (n + 1) = 2 ^ n * (P / 2 ^ n % 2) + P % 2 ^ n := by
      rw [pow_succ, Nat.mod_mul, Nat.add_comm]
    rw [hs, ih, ExtendedMantissa.shiftRightOne, pow_succ 2 (n + 1), Nat.div_div_eq_div_mul]
    congr 1
    have hp : 0 < 2 ^ n := by positivity
    rw [hm]
    rcases Nat.mod_two_eq_zero_or_one (P / 2 ^ n) with h | h
    · simp [h]
    · simp [h, bne_iff_ne]

/-- What they make of the bits that stay. -/
def roundUp (q b s : ℕ) : ℕ := (ExtendedMantissa.mk q (b != 0) (s != 0)).roundedMantissa

theorem roundUp_zero (q s : ℕ) : roundUp q 0 s = q := by
  rcases Nat.eq_zero_or_pos s with rfl | hs
  · rfl
  · have h : (s != 0) = true := bne_iff_ne.mpr hs.ne'
    simp [roundUp, h, ExtendedMantissa.roundedMantissa, ExtendedMantissa.accuracy,
      Accuracy.roundToNearestEven]

theorem roundUp_half (q : ℕ) : roundUp q 1 0 = q + q % 2 := rfl

theorem roundUp_more (q : ℕ) {s : ℕ} (hs : 0 < s) : roundUp q 1 s = q + 1 := by
  have h : (s != 0) = true := bne_iff_ne.mpr hs.ne'
  simp [roundUp, h, ExtendedMantissa.roundedMantissa, ExtendedMantissa.accuracy,
    Accuracy.roundToNearestEven]

theorem le_roundUp_iff {a q b s k : ℕ} (hs : s < a) (hb : b = 0 ∨ b = 1) :
    k ≤ roundUp q b s ↔
      4 * (a * k) < 4 * (a * q) + 2 * (a * b) + 2 * s + 2 * a ∨
        4 * (a * k) = 4 * (a * q) + 2 * (a * b) + 2 * s + 2 * a ∧ k % 2 = 0 := by
  have hk : k ≤ q ∧ a * k ≤ a * q ∨ k = q + 1 ∧ a * k = a * q + a ∨
      q + 2 ≤ k ∧ a * q + 2 * a ≤ a * k := by
    rcases (by omega : k ≤ q ∨ k = q + 1 ∨ q + 2 ≤ k) with h | h | h
    · exact Or.inl ⟨h, Nat.mul_le_mul_left a h⟩
    · exact Or.inr (Or.inl ⟨h, by rw [h, Nat.mul_succ]⟩)
    · refine Or.inr (Or.inr ⟨h, ?_⟩)
      calc a * q + 2 * a = a * (q + 2) := by rw [Nat.mul_add, Nat.mul_comm 2]
        _ ≤ a * k := Nat.mul_le_mul_left a h
  rcases hb with rfl | rfl
  · rw [roundUp_zero]
    omega
  · rcases Nat.eq_zero_or_pos s with rfl | hpos
    · rw [roundUp_half]
      omega
    · rw [roundUp_more q hpos]
      omega

/-- **Rounding is to the nearest**, and of two to the even one. -/
theorem le_roundedMantissa_iff (P k : ℕ) : ∀ n : ℕ, k ≤ (shifted P n).roundedMantissa ↔
    2 * (k * 2 ^ n) < 2 * P + 2 ^ n ∨ 2 * (k * 2 ^ n) = 2 * P + 2 ^ n ∧ k % 2 = 0
  | 0 => by
    show k ≤ P ↔ _
    omega
  | n + 1 => by
    have hP := Nat.div_add_mod P (2 ^ n)
    have hq := Nat.div_add_mod (P / 2 ^ n) 2
    have hd : P / 2 ^ (n + 1) = P / 2 ^ n / 2 := by rw [pow_succ, Nat.div_div_eq_div_mul]
    have hs := Nat.mod_lt P (Nat.two_pow_pos n)
    have he : 2 ^ n * (P / 2 ^ n) =
        2 * (2 ^ n * (P / 2 ^ (n + 1))) + 2 ^ n * (P / 2 ^ n % 2) := by
      rw [hd, Nat.mul_left_comm, ← Nat.mul_add, hq]
    have hk : k * 2 ^ (n + 1) = 2 * (2 ^ n * k) := by ring
    have hp : 2 ^ (n + 1) = 2 * 2 ^ n := by ring
    rw [shifted_succ, hk]
    refine (le_roundUp_iff hs (Nat.mod_two_eq_zero_or_one _)).trans ?_
    generalize P / 2 ^ (n + 1) = q at he ⊢
    omega

/-! ### Rounding -/

/-- The unit in which `P * 2 ^ e` is rounded. -/
def unit (P : ℕ) (e : ℤ) : ℤ := max (P.log2 + e - 23) (-149)

/-- What it is rounded to, in this unit. -/
def rounded (P : ℕ) (e : ℤ) : ℕ := (shifted P (unit P e - e).toNat).roundedMantissa

/-- **What it is rounded to is the nearest.** -/
theorem roundsTo_rounded {P : ℕ} (hP : 2 ^ 23 ≤ P) (e : ℤ) :
    RoundsTo 23 (-149) (P * 2 ^ e) (rounded P e) (unit P e) := by
  have hP0 : P ≠ 0 := by rintro rfl; exact absurd hP (by decide)
  have hlog : 23 ≤ P.log2 := (Nat.le_log2 hP0).mpr hP
  have hlo : (2 ^ P.log2 : ℕ) ≤ P := Nat.log2_self_le hP0
  have hhi : P < 2 ^ (P.log2 + 1) := Nat.lt_log2_self
  have hu := two_zpow_pos e
  obtain ⟨n, hn⟩ : ∃ n : ℕ, unit P e = e + n := ⟨(unit P e - e).toNat, by unfold unit; omega⟩
  have hr : rounded P e = (shifted P n).roundedMantissa := by
    unfold rounded
    rw [hn]
    congr 2
    omega
  refine ⟨fun k => ?_, le_max_right _ _, ?_, ?_⟩
  · have hk : (k * 2 ^ (e + n) : ℚ) = (2 * (k * 2 ^ n) : ℕ) * (2 ^ e / 2) := by
      rw [two_zpow_add]
      push_cast
      ring
    have hy : (P * 2 ^ e + 2 ^ (e + n) / 2 : ℚ) = (2 * P + 2 ^ n : ℕ) * (2 ^ e / 2) := by
      rw [two_zpow_add]
      push_cast
      ring
    rw [hr, le_roundedMantissa_iff, hn, hk, hy, mul_lt_mul_iff_left₀ (by positivity),
      mul_left_inj' (by positivity), Nat.cast_lt, Nat.cast_inj, Nat.even_iff]
  · calc (P * 2 ^ e : ℚ) < (2 ^ (P.log2 + 1) : ℕ) * 2 ^ e := by
          exact mul_lt_mul_of_pos_right (by exact_mod_cast hhi) hu
      _ = 2 ^ (e + (P.log2 + 1 : ℕ)) := (two_zpow_add e _).symm
      _ ≤ 2 ^ (unit P e + (23 : ℕ) + 1) := two_zpow_le (by unfold unit; omega)
  · refine (eq_or_ne (unit P e) (-149)).imp id fun ht => ?_
    calc (2 ^ (unit P e + (23 : ℕ)) : ℚ) = 2 ^ (e + (P.log2 : ℕ)) := by
          congr 1
          unfold unit at ht ⊢
          omega
      _ = (2 ^ P.log2 : ℕ) * 2 ^ e := two_zpow_add e _
      _ ≤ P * 2 ^ e := mul_le_mul_of_nonneg_right (by exact_mod_cast hlo) hu.le

/-! ### Packing -/

/-- A number in the form of the format: with all bits, or with the least exponent. -/
structure Canonical (m : ℕ) (e : ℤ) : Prop where
  pos : 0 < m
  lt : m < 2 ^ 24
  le : -149 ≤ e
  normal : 2 ^ 23 ≤ m ∨ e = -149

theorem toNat_one_append (m : BitVec 23) : (1#1 ++ m).toNat = 2 ^ 23 + m.toNat := by
  rw [BitVec.toNat_append, ← Nat.shiftLeft_add_eq_or_of_lt m.isLt]
  rfl

theorem ofBitVec_unpackSign (s : Sign) (e : BitVec 8) (m : BitVec 23) :
    Sign.ofBitVec (@unpackSign .binary32 (packComponents .binary32 s e m)) = s := by
  rw [unpackSign_packComponents, Sign.ofBitVec_toBitVec]

section Components

variable (s : Sign) {e : BitVec 8} (m : BitVec 23)

/-- A number with the leading bit left out. -/
theorem unpack_normal (he : e ≠ -1#8) (h0 : e ≠ 0#8) :
    unpack .binary32 (packComponents .binary32 s e m) =
      .finite s (2 ^ 23 + m.toNat) (e.toNat - 150) (by omega) := by
  have hE : @unpackExponent .binary32 (packComponents .binary32 s e m) = e :=
    unpackExponent_packComponents
  have hM : @unpackMantissa .binary32 (packComponents .binary32 s e m) = m :=
    unpackMantissa_packComponents
  refine (if_neg ?_).trans ((if_neg ?_).trans ?_)
  · rw [hE]
    exact he
  · rw [hE]
    exact h0
  · rw [UnpackedFloat.finite.injEq]
    refine ⟨ofBitVec_unpackSign s e m, ?_, ?_⟩
    · rw [toNat_one_append, hM]
    · rw [hE]
      rfl

/-- A number with no leading bit. -/
theorem unpack_subnormal (hm : 0 < m.toNat) :
    unpack .binary32 (packComponents .binary32 s 0#8 m) =
      .finite s m.toNat (-149) hm := by
  have hE : @unpackExponent .binary32 (packComponents .binary32 s 0#8 m) = 0#8 :=
    unpackExponent_packComponents
  have hM : @unpackMantissa .binary32 (packComponents .binary32 s 0#8 m) = m :=
    unpackMantissa_packComponents
  have h0 : m ≠ 0#23 := by
    rintro rfl
    exact Nat.lt_irrefl 0 hm
  refine (if_neg ?_).trans ((if_pos hE).trans ((dif_neg ?_).trans ?_))
  · rw [hE]
    decide
  · rw [hM]
    exact h0
  · rw [UnpackedFloat.finite.injEq]
    refine ⟨ofBitVec_unpackSign s 0#8 m, ?_, ?_⟩
    · rw [hM]
    · rw [hE]
      rfl

end Components

/-- **What was packed is unpacked again**, if its exponent is not too large. -/
theorem unpack_pack {m : ℕ} {e : ℤ} (h : Canonical m e) (he : e ≤ 104) (s : Sign) :
    unpack .binary32 (pack .binary32 (.finite s m e h.pos)) =
      .finite s m e h.pos := by
  have hl := h.le
  have hlt := h.lt
  have hm0 := h.pos.ne'
  have hinf : ¬ 2 ^ 8 ≤ (e + 127 + 23).toNat + 1 := by omega
  unfold pack
  change unpack .binary32 (if 2 ^ 8 ≤ (e + 127 + 23).toNat + 1 then _
    else if m.log2 + 1 = 24 then _ else _) = _
  rw [if_neg hinf]
  by_cases hn : 2 ^ 23 ≤ m
  · have hlog : m.log2 + 1 = 24 := by
      have h1 := (Nat.le_log2 hm0).mpr hn
      have h2 := (Nat.log2_lt hm0).mpr hlt
      omega
    have hexp : (BitVec.ofNat 8 (e + 127 + 23).toNat).toNat = (e + 127 + 23).toNat := by
      rw [BitVec.toNat_ofNat, Nat.mod_eq_of_lt (by omega)]
    have hmant : 2 ^ 23 + (BitVec.ofNat 23 m).toNat = m := by
      rw [BitVec.toNat_ofNat]
      omega
    have h1 : BitVec.ofNat 8 (e + 127 + 23).toNat ≠ -1#8 := fun hc => by
      have hc := congrArg BitVec.toNat hc
      rw [hexp] at hc
      change _ = 255 at hc
      omega
    have h0 : BitVec.ofNat 8 (e + 127 + 23).toNat ≠ 0#8 := fun hc => by
      have hc := congrArg BitVec.toNat hc
      rw [hexp] at hc
      change _ = 0 at hc
      omega
    rw [if_pos hlog]
    refine (unpack_normal s _ h1 h0).trans ?_
    rw [UnpackedFloat.finite.injEq]
    exact ⟨rfl, hmant, by rw [hexp]; omega⟩
  · have hlog : m.log2 + 1 ≠ 24 := by
      have h2 := (Nat.log2_lt hm0).mpr (Nat.lt_of_not_le hn)
      omega
    have hmant : (BitVec.ofNat 23 m).toNat = m := by
      rw [BitVec.toNat_ofNat, Nat.mod_eq_of_lt (by omega)]
    rw [if_neg hlog]
    refine (unpack_subnormal s _ (hmant.symm ▸ h.pos)).trans ?_
    rw [UnpackedFloat.finite.injEq]
    exact ⟨rfl, hmant, (h.normal.resolve_left hn).symm⟩

/-- Otherwise it is infinite. -/
theorem unpack_pack_of_lt {m : ℕ} {e : ℤ} (hm : 0 < m) (he : 104 < e) (s : Sign) :
    unpack .binary32 (pack .binary32 (.finite s m e hm)) = .infinity s := by
  have hinf : 2 ^ 8 ≤ (e + 127 + 23).toNat + 1 := by omega
  unfold pack
  change unpack .binary32 (if 2 ^ 8 ≤ (e + 127 + 23).toNat + 1 then _
    else if m.log2 + 1 = 24 then _ else _) = _
  rw [if_pos hinf]
  cases s <;> rfl

theorem unpack_pack_infinity (s : Sign) :
    unpack .binary32 (pack .binary32 (.infinity s)) = .infinity s := by
  cases s <;> rfl

/-! ### Rounded, packed and unpacked -/

theorem targetExponent_eq (m : ℕ) (e : ℤ) :
    Format.binary32.targetExponent (totalExponent m e) = unit m e := by
  change max ((m.log2 : ℤ) + 1 + e - 24) (-149) = unit m e
  unfold unit
  omega

theorem shiftToTargetExponent_eq (m : ℕ) (e : ℤ) :
    shiftToTargetExponent .binary32 m e .exact =
      (shifted m (unit m e - e).toNat, e + (unit m e - e).toNat) := by
  unfold shiftToTargetExponent
  rw [targetExponent_eq]
  rfl

/-- Nothing is shifted out of what fits. -/
theorem shift_of_lt {m : ℕ} {e : ℤ} (hm : m < 2 ^ 24) (he : -149 ≤ e) :
    shiftToTargetExponent .binary32 m e .exact = (⟨m, false, false⟩, e) := by
  have hlog : m.log2 ≤ 23 := by
    rcases Nat.eq_zero_or_pos m with rfl | hpos
    · decide
    · exact Nat.le_of_lt_succ ((Nat.log2_lt hpos.ne').mpr hm)
  have hn : (unit m e - e).toNat = 0 := by
    unfold unit
    omega
  rw [shiftToTargetExponent_eq, hn]
  exact Prod.ext rfl (Int.add_zero e)

/-- A carry into a bit more is shifted out. -/
theorem shift_carry {e : ℤ} (he : -149 ≤ e) :
    shiftToTargetExponent .binary32 (2 ^ 24) e .exact = (⟨2 ^ 23, false, false⟩, e + 1) := by
  have hn : (unit (2 ^ 24) e - e).toNat = 1 := by
    unfold unit
    rw [Nat.log2_two_pow]
    omega
  rw [shiftToTargetExponent_eq, hn]
  rfl

/-- After rounding, a carry at most is shifted out, which changes nothing. -/
theorem exists_shift {y : ℚ} {q : ℕ} {t : ℤ} (h : RoundsTo 23 (-149) y q t) :
    ∃ (m : ℕ) (e : ℤ), shiftToTargetExponent .binary32 q t .exact = (⟨m, false, false⟩, e) ∧
      (m * 2 ^ e : ℚ) = q * 2 ^ t ∧ (m = 0 ∨ Canonical m e) := by
  rcases Nat.lt_or_ge q (2 ^ 24) with hlt | hge
  · refine ⟨q, t, shift_of_lt hlt h.least_le, rfl, ?_⟩
    refine (Nat.eq_zero_or_pos q).imp id fun hpos => ⟨hpos, hlt, h.least_le, ?_⟩
    exact h.normal.symm.imp h.two_pow_le id
  · obtain rfl := Nat.le_antisymm h.le_two_pow hge
    have hl := h.least_le
    refine ⟨2 ^ 23, t + 1, shift_carry hl, ?_, Or.inr ⟨by decide, by decide, by omega, Or.inl le_rfl⟩⟩
    rw [zpow_add_one₀ (by norm_num)]
    push_cast
    ring

/-- **Rounding** gives a number in the form of the format, or zero. -/
theorem round_cases (s : Sign) {P : ℕ} (hP : 2 ^ 23 ≤ P) (e : ℤ) :
    ∃ (m : ℕ) (e' : ℤ), (m * 2 ^ e' : ℚ) = rounded P e * 2 ^ unit P e ∧
      (m = 0 ∧ roundWithAccuracy .binary32 s P e .exact = .zero s ∨
        ∃ h : Canonical m e', roundWithAccuracy .binary32 s P e .exact = .finite s m e' h.pos) := by
  obtain ⟨m, e', hs, hv, hc⟩ := exists_shift (roundsTo_rounded hP e)
  have hlog : 23 ≤ P.log2 := (Nat.le_log2 (by omega)).mpr hP
  have hu : e + ((unit P e - e).toNat : ℤ) = unit P e := by
    unfold unit
    omega
  have hround : roundWithAccuracy .binary32 s P e .exact =
      if h : m = 0 then .zero s else .finite s m e' (Nat.pos_of_ne_zero h) := by
    unfold roundWithAccuracy
    rw [shiftToTargetExponent_eq, hu]
    change (let w := shiftToTargetExponent .binary32 (rounded P e) (unit P e) .exact
      if h : w.1.mantissa = 0 then UnpackedFloat.zero s
      else .finite s w.1.mantissa w.2 (Nat.pos_of_ne_zero h)) = _
    rw [hs]
  refine ⟨m, e', hv, hc.imp (fun h0 => ⟨h0, ?_⟩) fun hc => ⟨hc, ?_⟩⟩
  · rw [hround, dif_pos h0]
  · rw [hround, dif_neg hc.pos.ne']

/-! ### Truncating -/

/-- The same, of a rational number and its negative. -/
def truncated (s : Sign) (r : ℚ) : Option UInt64 :=
  match s with
  | .positive => if r < 2 ^ 64 then some (UInt64.ofNat ⌊r⌋₊) else none
  | .negative => if r < 1 then some 0 else none

theorem shifted_mantissa (m n : ℕ) : (shifted m n).mantissa = m / 2 ^ n := by
  cases n with
  | zero => exact (Nat.div_one m).symm
  | succ n => rw [shifted_succ]

theorem roundToInt_eq (s : Sign) (m : ℕ) (e : ℤ) :
    roundToInt s m e = s.apply (⌊(m * 2 ^ e : ℚ)⌋₊ : ℕ) := by
  unfold roundToInt decreaseExponent shiftToExponent
  rcases Int.le_total 0 e with h | h
  · obtain ⟨n, rfl⟩ := Int.eq_ofNat_of_zero_le h
    have hf : ⌊(m * 2 ^ (n : ℤ) : ℚ)⌋₊ = m <<< n := by
      rw [zpow_natCast, Nat.shiftLeft_eq]
      exact_mod_cast Nat.floor_natCast (R := ℚ) (m * 2 ^ n)
    have hs : ((n : ℤ) - 0).toNat = n := by omega
    have hz : (0 - ((n : ℤ) - n)).toNat = 0 := by omega
    rw [hf, hs]
    change s.apply (shifted (m <<< n) (0 - ((n : ℤ) - n)).toNat).mantissa = _
    rw [hz]
    rfl
  · obtain ⟨n, hn⟩ := Int.eq_ofNat_of_zero_le (Int.neg_nonneg.mpr h)
    obtain rfl : e = -n := by omega
    have hf : ⌊(m * 2 ^ (-n : ℤ) : ℚ)⌋₊ = m / 2 ^ n := by
      rw [zpow_neg, zpow_natCast, ← div_eq_mul_inv]
      exact_mod_cast Nat.floor_div_eq_div (K := ℚ) m (2 ^ n)
    have hs : (-(n : ℤ) - 0).toNat = 0 := by omega
    have hz : (0 - (-(n : ℤ) - (0 : ℕ))).toNat = n := by omega
    rw [hf, hs]
    change s.apply (shifted m (0 - (-(n : ℤ) - (0 : ℕ))).toNat).mantissa = _
    rw [hz, shifted_mantissa]

theorem truncate?_finite (s : Sign) {m : ℕ} (e : ℤ) (hm : 0 < m) :
    truncate? (.finite s m e hm) = truncated s (m * 2 ^ e) := by
  have hr : (0 : ℚ) ≤ m * 2 ^ e := mul_nonneg (Nat.cast_nonneg m) (two_zpow_pos e).le
  change (if 0 ≤ roundToInt s m e ∧ roundToInt s m e < 2 ^ 64 then
    some (UInt64.ofNat (roundToInt s m e).toNat) else none) = _
  rw [roundToInt_eq]
  generalize (m * 2 ^ e : ℚ) = r at hr ⊢
  cases s with
  | positive =>
    have hlt : r < 2 ^ 64 ↔ ⌊r⌋₊ < 2 ^ 64 := by
      rw [Nat.floor_lt hr]
      norm_cast
    change (if 0 ≤ (⌊r⌋₊ : ℤ) ∧ (⌊r⌋₊ : ℤ) < 2 ^ 64 then
      some (UInt64.ofNat (⌊r⌋₊ : ℤ).toNat) else none) = if r < 2 ^ 64 then _ else none
    exact if_congr (Iff.trans (by omega) hlt.symm) rfl rfl
  | negative =>
    have hlt : r < 1 ↔ ⌊r⌋₊ = 0 := Nat.floor_eq_zero.symm
    change (if 0 ≤ -(⌊r⌋₊ : ℤ) ∧ -(⌊r⌋₊ : ℤ) < 2 ^ 64 then
      some (UInt64.ofNat (-(⌊r⌋₊ : ℤ)).toNat) else none) = if r < 1 then some 0 else none
    by_cases h0 : ⌊r⌋₊ = 0
    · rw [if_pos (hlt.mpr h0), h0]
      rfl
    · rw [if_neg (mt hlt.mp h0), if_neg (by omega)]

/-- The product of two numbers, rounded and then truncated. -/
theorem truncate?_round (s : Sign) {P : ℕ} (hP : 2 ^ 23 ≤ P) (e : ℤ) :
    truncate? (unpack .binary32
        (pack .binary32 (roundWithAccuracy .binary32 s P e .exact))) =
      truncated s (rounded P e * 2 ^ unit P e) := by
  obtain ⟨m, e', hv, ⟨rfl, h⟩ | ⟨hc, h⟩⟩ := round_cases s hP e
  · rw [h, ← hv, pack, unpack_packedZero, Nat.cast_zero, zero_mul]
    cases s <;> rfl
  · rw [h, ← hv]
    rcases Int.lt_or_le 104 e' with hlt | hle
    · rw [unpack_pack_of_lt hc.pos hlt]
      have h23 : (2 ^ 23 : ℕ) ≤ m := hc.normal.resolve_right (by omega)
      have hbig : (2 : ℚ) ^ 64 ≤ m * 2 ^ e' :=
        calc (2 : ℚ) ^ 64 ≤ 2 ^ (e' + (23 : ℕ)) := two_zpow_le (s := 64) (by omega)
          _ = (2 ^ 23 : ℕ) * 2 ^ e' := two_zpow_add e' 23
          _ ≤ m * 2 ^ e' := mul_le_mul_of_nonneg_right (by exact_mod_cast h23) (two_zpow_pos e').le
      cases s with
      | positive => exact (if_neg (not_lt.mpr hbig)).symm
      | negative => exact (if_neg (not_lt.mpr (le_trans (by norm_num) hbig))).symm
    · rw [unpack_pack hc hle, truncate?_finite]

/-! ### Scaling -/

/-- The number, if it is one. -/
def value? (x : Float32) : Option ℚ :=
  match x.toModel.unpack with
  | .notANumber | .infinity _ => none
  | .zero _ => some 0
  | .finite s m e _ => some (s.apply m * 2 ^ e)

section Factor

variable {factor M : ℕ} {E : ℤ} {hM : 0 < M}
  (hf : (Float32.ofNat factor).toModel.unpack = .finite .positive M E hM) (hbits : 2 ^ 23 ≤ M)
  (hv : (M * 2 ^ E : ℚ) = factor)

include hf

theorem scaled?_eq (x : Float32) : scaled? factor x = truncate? (unpack .binary32
    (pack .binary32 (mul .binary32 x.toModel.unpack (.finite .positive M E hM)))) := by
  rw [← hf]
  rfl

theorem scaled?_of_value?_eq_none {x : Float32} (hx : value? x = none) : scaled? factor x = none := by
  rw [scaled?_eq hf]
  unfold value? at hx
  rcases hu : x.toModel.unpack with s | - | s | ⟨s, m, e, hm⟩
  · rw [mul, unpack_pack_infinity]
    rfl
  · rw [mul, pack, unpack_packedNaN]
    rfl
  · rw [hu] at hx
    cases hx
  · rw [hu] at hx
    cases hx

include hbits hv

/-- **What a scaled number is**: the product is rounded, and what is rounded has the sign of the number. -/
theorem exists_roundsTo {x : Float32} {v : ℚ} (hx : value? x = some v) :
    ∃ s q t, (s = .positive ∧ 0 ≤ v ∨ s = .negative ∧ v < 0) ∧
      RoundsTo 23 (-149) |factor * v| q t ∧ scaled? factor x = truncated s (q * 2 ^ t) := by
  rw [scaled?_eq hf]
  unfold value? at hx
  rcases hu : x.toModel.unpack with s | - | s | ⟨s, m, e, hm⟩ <;> rw [hu] at hx
  · cases hx
  · cases hx
  · obtain rfl := Option.some_inj.mp hx
    refine ⟨.positive, 0, -149, Or.inl ⟨rfl, le_rfl⟩, ?_, ?_⟩
    · rw [mul_zero, abs_zero]
      exact RoundsTo.zero 23 (-149)
    · rw [mul, pack, unpack_packedZero, Nat.cast_zero, zero_mul]
      rfl
  · obtain rfl := Option.some_inj.mp hx
    have hP : 2 ^ 23 ≤ m * M := hbits.trans (Nat.le_mul_of_pos_left M hm)
    have hpos : (0 : ℚ) < m * 2 ^ e := mul_pos (by exact_mod_cast hm) (two_zpow_pos e)
    have hval : |(factor * (m * 2 ^ e) : ℚ)| = (m * M : ℕ) * 2 ^ (e + E) := by
      rw [← hv, abs_of_nonneg (by positivity), zpow_add₀ (by norm_num)]
      push_cast
      ring
    have hround := truncate?_round (s * .positive) hP (e + E)
    cases s with
    | positive =>
      exact ⟨.positive, _, _, Or.inl ⟨rfl, hpos.le⟩, hval ▸ roundsTo_rounded hP (e + E), hround⟩
    | negative =>
      have hneg : ((Sign.negative.apply m : ℤ) * 2 ^ e : ℚ) = -(m * 2 ^ e) := by
        rw [← neg_mul]
        exact_mod_cast rfl
      refine ⟨.negative, _, _, Or.inr ⟨rfl, hneg ▸ neg_neg_of_pos hpos⟩, ?_, hround⟩
      rw [hneg, mul_neg, abs_neg, hval]
      exact roundsTo_rounded hP (e + E)

variable {x x' : Float32} {v v' : ℚ} {n n' : UInt64}

theorem exists_floor (hx : value? x = some v) (hn : scaled? factor x = some n) :
    ∃ q t, RoundsTo 23 (-149) |factor * v| q t ∧ n.toNat = ⌊(q * 2 ^ t : ℚ)⌋₊ ∧ (v < 0 → n = 0) := by
  obtain ⟨s, q, t, hs, hr, he⟩ := exists_roundsTo hf hbits hv hx
  refine ⟨q, t, hr, ?_⟩
  have hr0 : (0 : ℚ) ≤ q * 2 ^ t := mul_nonneg (Nat.cast_nonneg q) (two_zpow_pos t).le
  rw [hn] at he
  rcases hs with ⟨rfl, hs⟩ | ⟨rfl, hs⟩
  · obtain ⟨hlt, he⟩ := Option.ite_none_right_eq_some.mp he.symm
    have hlt : ⌊(q * 2 ^ t : ℚ)⌋₊ < 2 ^ 64 := (Nat.floor_lt hr0).mpr (by exact_mod_cast hlt)
    refine ⟨?_, fun hneg => absurd hs (not_le.mpr hneg)⟩
    rw [← Option.some_inj.mp he, UInt64.toNat_ofNat', Nat.mod_eq_of_lt hlt]
  · obtain ⟨hlt, he⟩ := Option.ite_none_right_eq_some.mp he.symm
    obtain rfl := Option.some_inj.mp he
    exact ⟨(Nat.floor_eq_zero.mpr hlt).symm, fun _ => rfl⟩

/-- **When scaling is defined**: for numbers whose product stays away from -1 and from `2 ^ 64`. -/
theorem scaled?_isSome_iff : (scaled? factor x).isSome ↔
    ∃ v, value? x = some v ∧ -(1 - 1 / 2 ^ 25) < factor * v ∧ factor * v < 2 ^ 64 - 2 ^ 39 := by
  rcases hx : value? x with - | v
  · rw [scaled?_of_value?_eq_none hf hx]
    simp
  · obtain ⟨s, q, t, hs, hr, he⟩ := exists_roundsTo hf hbits hv hx
    have hf0 : (0 : ℚ) ≤ factor := Nat.cast_nonneg factor
    simp only [he, Option.some_inj, exists_eq_left']
    rcases hs with ⟨rfl, hs⟩ | ⟨rfl, hs⟩
    · have h0 : (0 : ℚ) ≤ factor * v := mul_nonneg hf0 hs
      have h64 := hr.lt_two_pow_iff (E := 64) (by norm_num)
      rw [abs_of_nonneg h0] at h64
      norm_num at h64
      refine Option.isSome_ite.trans ?_
      norm_num
      rw [h64]
      constructor
      · intro hlt
        exact ⟨by linarith, hlt⟩
      · exact fun h => h.2
    · have h0 : (factor * v : ℚ) ≤ 0 := mul_nonpos_of_nonneg_of_nonpos hf0 hs.le
      have h1 := hr.lt_two_pow_iff (E := 0) (by norm_num)
      rw [abs_of_nonpos h0] at h1
      norm_num at h1
      refine Option.isSome_ite.trans ?_
      norm_num
      rw [h1]
      constructor
      · intro hlt
        exact ⟨by linarith, by linarith⟩
      · intro h
        linarith [h.1]

/-- **How exact scaling is.** -/
theorem abs_scaled?_sub_lt (hx : value? x = some v) (hn : scaled? factor x = some n) :
    |(n.toNat : ℚ) - factor * v| < 1 + |factor * v| / 2 ^ 24 := by
  obtain ⟨q, t, hr, hfloor, hneg⟩ := exists_floor hf hbits hv hx hn
  have hlt := hr.abs_floor_sub_lt (by norm_num) (abs_nonneg _)
  rw [← hfloor] at hlt
  rcases le_or_gt 0 v with h | h
  · have h0 : (0 : ℚ) ≤ factor * v := mul_nonneg (Nat.cast_nonneg factor) h
    rw [abs_of_nonneg h0] at hlt ⊢
    exact hlt
  · rw [hneg h, UInt64.toNat_zero, Nat.cast_zero, zero_sub] at *
    rw [abs_neg] at *
    rw [abs_abs] at hlt
    exact hlt

/-- **Scaling keeps the order.** -/
theorem scaled?_mono (hx : value? x = some v) (hx' : value? x' = some v') (hle : v ≤ v')
    (hn : scaled? factor x = some n) (hn' : scaled? factor x' = some n') : n ≤ n' := by
  obtain ⟨q, t, hr, hfloor, hneg⟩ := exists_floor hf hbits hv hx hn
  obtain ⟨q', t', hr', hfloor', -⟩ := exists_floor hf hbits hv hx' hn'
  rcases le_or_gt 0 v with h | h
  · have hf0 : (0 : ℚ) ≤ factor := Nat.cast_nonneg factor
    rw [abs_of_nonneg (mul_nonneg hf0 h)] at hr
    rw [abs_of_nonneg (mul_nonneg hf0 (h.trans hle))] at hr'
    have hm := hr.mono hr' (mul_le_mul_of_nonneg_left hle hf0)
    rw [UInt64.le_iff_toNat_le, hfloor, hfloor']
    exact Nat.floor_mono hm
  · rw [hneg h, UInt64.le_iff_toNat_le]
    exact Nat.zero_le _

end Factor

end MuchCoolEfi.Cxx.Scaling
