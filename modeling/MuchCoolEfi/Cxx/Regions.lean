import Mathlib.Tactic.Common
import MuchCoolEfi.Cxx.Contiguous

/-! # Ranges of bytes in a 64-bit address space

A `Region` is a start and a number of bytes, as a pointer and a length are passed around; nothing
says that it ends inside the address space. `drop k` is what is left after `k` bytes, computed as
code computes it, in wrapping 64-bit arithmetic.

* `drop_inside_iff`: what is left lies inside a region exactly if the region has the `k` bytes.
* `toNat_size_drop`, `end_drop`: then the length does not wrap, and the end is the same. -/

namespace MuchCoolEfi.Cxx.Regions

open MuchCoolEfi.Cxx.Contiguous

/-- Bytes from `start` on. -/
structure Region where
  start : Pointer
  size : UInt64

namespace Region

/-- Where the region ends; beyond the address space if it does not fit. -/
def endOf (r : Region) : ℕ := r.start.toNat + r.size.toNat

/-- The region ends inside the address space. -/
def InSpace (r : Region) : Prop := r.endOf < 2 ^ 64

/-- Every byte of `r` is one of `s`. -/
def Inside (r s : Region) : Prop := s.start.toNat ≤ r.start.toNat ∧ r.endOf ≤ s.endOf

/-- What comes after the first `k` bytes. -/
def drop (r : Region) (k : UInt64) : Region := ⟨r.start + k, r.size - k⟩

theorem Inside.trans {r s t : Region} (hrs : r.Inside s) (hst : s.Inside t) : r.Inside t :=
  ⟨hst.1.trans hrs.1, hrs.2.trans hst.2⟩

/-- The length does not wrap. -/
theorem toNat_size_drop {r : Region} {k : UInt64} :
    (r.drop k).size.toNat + k.toNat = r.size.toNat ↔ k ≤ r.size := by
  rw [UInt64.le_iff_toNat_le]
  have hs := r.size.toNat_lt
  have hk := k.toNat_lt
  show (r.size - k).toNat + k.toNat = r.size.toNat ↔ _
  rw [UInt64.toNat_sub]
  omega

theorem toNat_start_drop {r : Region} {k : UInt64} (hr : r.InSpace) (hk : k ≤ r.size) :
    (r.drop k).start.toNat = r.start.toNat + k.toNat := by
  unfold InSpace endOf at hr
  have hle := UInt64.le_iff_toNat_le.mp hk
  show (r.start + k).toNat = _
  rw [UInt64.toNat_add, Nat.mod_eq_of_lt (by omega)]

/-- **What is left ends where the region ends.** -/
theorem end_drop {r : Region} {k : UInt64} (hr : r.InSpace) (hk : k ≤ r.size) :
    (r.drop k).endOf = r.endOf := by
  have h1 := toNat_start_drop hr hk
  have h2 := toNat_size_drop.mpr hk
  unfold endOf
  omega

/-- **What is left lies inside exactly if there is enough to drop.** If not, the length wraps to a
number of bytes that no region has room for. -/
theorem drop_inside_iff {r : Region} {k : UInt64} (hr : r.InSpace) :
    (r.drop k).Inside r ↔ k ≤ r.size := by
  constructor
  · rintro ⟨h1, h2⟩
    by_contra hk
    have hlt : r.size.toNat < k.toNat := UInt64.lt_iff_toNat_lt.mp (UInt64.not_le.mp hk)
    unfold InSpace at hr
    have hs := r.start.toNat_lt
    have hkl := k.toNat_lt
    have hstart : (r.drop k).start.toNat = (r.start.toNat + k.toNat) % 2 ^ 64 :=
      UInt64.toNat_add _ _
    have hsize : (r.drop k).size.toNat = (2 ^ 64 - k.toNat + r.size.toNat) % 2 ^ 64 :=
      UInt64.toNat_sub _ _
    unfold endOf at hr h2
    rcases Nat.lt_or_ge (r.start.toNat + k.toNat) (2 ^ 64) with hw | hw
    · -- the start does not wrap, but then the end is at least `2 ^ 64`
      omega
    · -- the start wraps, to somewhere before the region
      omega
  · intro hk
    refine ⟨?_, (end_drop hr hk).le⟩
    rw [toNat_start_drop hr hk]
    exact Nat.le_add_right _ _

end Region

end MuchCoolEfi.Cxx.Regions
