import Mathlib.Data.Nat.Bitwise
import Mathlib.Data.Nat.Notation

/-! # The top bit of a 64-bit word

A word is its top bit and the 63 bits below it. Clearing the bit keeps the rest, setting it keeps
the rest, and masking with it keeps nothing but the bit. -/

namespace MuchCoolEfi.Cxx.TopBit

/-- The word with only the top bit set. -/
def topBit : UInt64 := (1 : UInt64) <<< (63 : UInt64)

theorem toNat_topBit : topBit.toNat = 2 ^ 63 := rfl

theorem topBit_le_iff {w : UInt64} : topBit ≤ w ↔ 2 ^ 63 ≤ w.toNat := UInt64.le_iff_toNat_le

theorem lt_topBit_iff {w : UInt64} : w < topBit ↔ w.toNat < 2 ^ 63 := UInt64.lt_iff_toNat_lt

/-- The word with its top bit cleared. -/
def clear (w : UInt64) : UInt64 := w &&& ~~~topBit

theorem testBit_top (w : UInt64) : w.toNat.testBit 63 = decide (2 ^ 63 ≤ w.toNat) := by
  have hw := w.toNat_lt
  rw [Nat.testBit_eq_decide_div_mod_eq]
  by_cases h : 2 ^ 63 ≤ w.toNat
  · rw [decide_eq_decide]
    omega
  · rw [Nat.div_eq_of_lt (by omega)]
    simpa using h

/-- **The mask keeps the top bit** and nothing else. -/
theorem and_topBit (w : UInt64) : w &&& topBit = if topBit ≤ w then topBit else 0 := by
  have hb := testBit_top w
  rw [← UInt64.toNat_inj, UInt64.toNat_and, toNat_topBit, Nat.and_two_pow, hb]
  by_cases h : 2 ^ 63 ≤ w.toNat
  · rw [if_pos (topBit_le_iff.mpr h), decide_eq_true h]
    rfl
  · rw [if_neg (fun h' => h (topBit_le_iff.mp h')), decide_eq_false h]
    rfl

theorem and_topBit_of_lt {w : UInt64} (h : w < topBit) : w &&& topBit = 0 := by
  rw [and_topBit, if_neg (UInt64.not_le.mpr h)]

theorem toNat_clear (w : UInt64) : (clear w).toNat = w.toNat % 2 ^ 63 := by
  have hm : (~~~topBit).toNat = 2 ^ 63 - 1 := rfl
  rw [clear, UInt64.toNat_and, hm, Nat.and_two_pow_sub_one_eq_mod]

theorem clear_lt (w : UInt64) : clear w < topBit := by
  rw [lt_topBit_iff, toNat_clear]
  exact Nat.mod_lt _ (by decide)

/-- Setting the top bit adds `2 ^ 63` to a word without it. -/
theorem toNat_or_topBit {c : UInt64} (h : c < topBit) : (c ||| topBit).toNat = c.toNat + 2 ^ 63 := by
  have hc := lt_topBit_iff.mp h
  have := Nat.two_pow_add_eq_or_of_lt hc 1
  rw [Nat.mul_one] at this
  rw [UInt64.toNat_or, toNat_topBit, Nat.or_comm, ← this, Nat.add_comm]

/-- **Setting the top bit of a word that has it**, after clearing it, gives the word back. -/
theorem clear_or_topBit {w : UInt64} (h : topBit ≤ w) : clear w ||| topBit = w := by
  have hw := w.toNat_lt
  have hb := topBit_le_iff.mp h
  rw [← UInt64.toNat_inj, toNat_or_topBit (clear_lt w), toNat_clear]
  omega

end MuchCoolEfi.Cxx.TopBit
