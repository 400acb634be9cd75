import Mathlib.Algebra.Order.Ring.Nat
import Mathlib.Data.List.Nodup

/-! # Contiguous arrays in a 64-bit address space

A `Span w` is `std::span` over elements of `w` bytes: a pointer and a number of elements. What its
constructor demands of the caller is part of the structure: the array and the address one past its
end lie in the address space, and an array with elements does not start at null. `address i` is the
address the subscript computes, in wrapping 64-bit arithmetic and for any `i`; only below `size` is
it the address of an element. -/

namespace MuchCoolEfi.Cxx.Contiguous

/-- An address; `nullptr` is the address `0`. -/
abbrev Pointer := UInt64

/-- The null pointer. -/
def nullptr : Pointer := 0

/-- `std::span` over elements of `w` bytes. -/
structure Span (w : ℕ) where
  data : Pointer
  size : UInt64
  in_space : data.toNat + w * size.toNat < 2 ^ 64
  data_ne_null : 0 < size → data ≠ nullptr

namespace Span

variable {w : ℕ} (s : Span w)

/-- The address computed for the subscript `i`. -/
def address (i : UInt64) : Pointer := s.data + UInt64.ofNat w * i

/-- The address one past the last element. -/
def pastTheEnd : Pointer := s.address s.size

/-- The addresses of the elements, in the order a range-based `for` visits them. -/
def elements : List Pointer :=
  (List.range s.size.toNat).map fun i => s.address (UInt64.ofNat i)

/-- Up to one past the end, the address arithmetic does not wrap. -/
theorem toNat_address {i : UInt64} (hi : i ≤ s.size) :
    (s.address i).toNat = s.data.toNat + w * i.toNat := by
  have hs := s.in_space
  have hle : w * i.toNat ≤ w * s.size.toNat := Nat.mul_le_mul_left w (UInt64.le_iff_toNat_le.mp hi)
  have hw : w % 2 ^ 64 * i.toNat % 2 ^ 64 = w * i.toNat := by
    rw [Nat.mod_mul_mod, Nat.mod_eq_of_lt (by omega)]
  rw [address, UInt64.toNat_add, UInt64.toNat_mul, UInt64.toNat_ofNat', hw,
    Nat.mod_eq_of_lt (by omega)]

theorem address_ne_null {i : UInt64} (hi : i < s.size) : s.address i ≠ nullptr := by
  intro h
  have h1 := congrArg UInt64.toNat h
  rw [s.toNat_address (UInt64.le_of_lt hi)] at h1
  have h0 : nullptr.toNat = 0 := rfl
  have hpos : 0 < s.size := UInt64.lt_of_le_of_lt (UInt64.zero_le) hi
  exact s.data_ne_null hpos (UInt64.toNat_inj.mp (by omega))

/-- Up to one past the end, an address is null only for an empty array at null. -/
theorem address_ne_null_iff {i : UInt64} (hi : i ≤ s.size) :
    s.address i ≠ nullptr ↔ s.data ≠ nullptr := by
  have ht := s.toNat_address hi
  constructor
  · intro h hd
    have hs : s.size = 0 := by
      by_contra hne
      exact s.data_ne_null (UInt64.pos_iff_ne_zero.mpr hne) hd
    have hi0 : i = 0 := UInt64.le_zero_iff.mp (hs ▸ hi)
    refine h (UInt64.toNat_inj.mp ?_)
    rw [ht, hd, hi0]
    simp
  · intro hd h
    refine hd (UInt64.toNat_inj.mp ?_)
    rw [h] at ht
    have h0 : nullptr.toNat = 0 := rfl
    omega

theorem address_inj [NeZero w] {i j : UInt64} (hi : i ≤ s.size) (hj : j ≤ s.size)
    (h : s.address i = s.address j) : i = j := by
  have h1 := congrArg UInt64.toNat h
  rw [s.toNat_address hi, s.toNat_address hj] at h1
  have h2 : w * i.toNat = w * j.toNat := by omega
  exact UInt64.toNat_inj.mp (Nat.eq_of_mul_eq_mul_left (NeZero.pos w) h2)

/-! ### The elements -/

@[simp] theorem length_elements : s.elements.length = s.size.toNat := by simp [elements]

theorem getElem_elements {i : ℕ} (h : i < s.elements.length) :
    s.elements[i] = s.address (UInt64.ofNat i) := by
  simp [elements]

theorem toNat_ofNat_lt {i : ℕ} (h : i < s.elements.length) :
    (UInt64.ofNat i).toNat = i ∧ UInt64.ofNat i < s.size := by
  rw [length_elements] at h
  have hs := s.size.toNat_lt
  have hi : (UInt64.ofNat i).toNat = i := UInt64.toNat_ofNat_of_lt' (by simpa using h.trans hs)
  exact ⟨hi, UInt64.lt_iff_toNat_lt.mpr (by omega)⟩

theorem getElem?_elements {i : UInt64} (hi : i < s.size) :
    s.elements[i.toNat]? = some (s.address i) := by
  have hl : i.toNat < s.elements.length := by
    rw [length_elements]; exact UInt64.lt_iff_toNat_lt.mp hi
  rw [List.getElem?_eq_getElem hl, getElem_elements, UInt64.ofNat_toNat]

theorem drop_elements {i : UInt64} (hi : i < s.size) :
    s.elements.drop i.toNat = s.address i :: s.elements.drop (i.toNat + 1) := by
  have hl : i.toNat < s.elements.length := by
    rw [length_elements]; exact UInt64.lt_iff_toNat_lt.mp hi
  rw [List.drop_eq_getElem_cons hl, getElem_elements, UInt64.ofNat_toNat]

theorem mem_elements {p : Pointer} : p ∈ s.elements ↔ ∃ i < s.size, p = s.address i := by
  constructor
  · intro h
    obtain ⟨i, hi, rfl⟩ := List.getElem_of_mem h
    exact ⟨UInt64.ofNat i, (s.toNat_ofNat_lt hi).2, s.getElem_elements hi⟩
  · rintro ⟨i, hi, rfl⟩
    refine List.mem_map.mpr ⟨i.toNat, List.mem_range.mpr (UInt64.lt_iff_toNat_lt.mp hi), ?_⟩
    rw [UInt64.ofNat_toNat]

theorem ne_null_of_mem {p : Pointer} (h : p ∈ s.elements) : p ≠ nullptr := by
  obtain ⟨i, hi, rfl⟩ := s.mem_elements.mp h
  exact s.address_ne_null hi

/-- **A search over the elements** finds the one of least index. -/
theorem find?_elements_eq_some {P : Pointer → Bool} {p : Pointer} :
    s.elements.find? P = some p ↔
      ∃ i < s.size, p = s.address i ∧ P p = true ∧ ∀ j < i, P (s.address j) = false := by
  rw [List.find?_eq_some_iff_getElem]
  constructor
  · rintro ⟨hP, i, hi, rfl, hj⟩
    obtain ⟨hn, hs⟩ := s.toNat_ofNat_lt hi
    refine ⟨UInt64.ofNat i, hs, s.getElem_elements hi, hP, fun j hji => ?_⟩
    have hlt : j.toNat < i := by rw [← hn]; exact UInt64.lt_iff_toNat_lt.mp hji
    have := hj j.toNat hlt
    rw [s.getElem_elements (hlt.trans hi), UInt64.ofNat_toNat] at this
    simpa using this
  · rintro ⟨i, hi, rfl, hP, hj⟩
    have hl : i.toNat < s.elements.length := by
      rw [length_elements]; exact UInt64.lt_iff_toNat_lt.mp hi
    refine ⟨hP, i.toNat, hl, by rw [s.getElem_elements hl, UInt64.ofNat_toNat], fun j hji => ?_⟩
    obtain ⟨hn, -⟩ := s.toNat_ofNat_lt (hji.trans hl)
    rw [s.getElem_elements (hji.trans hl), hj _ (UInt64.lt_iff_toNat_lt.mpr (by omega))]
    rfl

theorem find?_elements_eq_none {P : Pointer → Bool} :
    s.elements.find? P = none ↔ ∀ i < s.size, P (s.address i) = false := by
  rw [List.find?_eq_none]
  constructor
  · intro h i hi
    simpa using h _ (s.mem_elements.mpr ⟨i, hi, rfl⟩)
  · intro h p hp
    obtain ⟨i, hi, rfl⟩ := s.mem_elements.mp hp
    simp [h i hi]

/-- **No element is visited twice.** -/
theorem nodup_elements [NeZero w] : s.elements.Nodup := by
  refine List.nodup_iff_injective_getElem.mpr fun i j h => ?_
  obtain ⟨hi, hi'⟩ := s.toNat_ofNat_lt i.isLt
  obtain ⟨hj, hj'⟩ := s.toNat_ofNat_lt j.isLt
  simp only [getElem_elements] at h
  have he := s.address_inj (UInt64.le_of_lt hi') (UInt64.le_of_lt hj') h
  exact Fin.ext (by rw [← hi, ← hj, he])

/-- The address one past the end is no element. -/
theorem pastTheEnd_notMem [NeZero w] : s.pastTheEnd ∉ s.elements := by
  intro h
  obtain ⟨i, hi, he⟩ := s.mem_elements.mp h
  have := s.address_inj (UInt64.le_refl _) (UInt64.le_of_lt hi) he
  subst this
  exact UInt64.lt_irrefl _ hi

end Span

end MuchCoolEfi.Cxx.Contiguous
