import Mathlib.Data.Nat.Notation
import Mathlib.Tactic.Common

/-! # Byte storage and the fields inside it

The storage of an object is a vector of bytes. A `Field n k` is `k` bytes at a fixed position of an
object of `n` bytes; that it lies inside the object is part of the field. `load` reads a field,
`store` writes one and leaves every other byte as it was: initialising or assigning one member of a
union or of a class is a `store` into storage that already held something.

* `load_store`, `load_store_of_disjoint`: what is read back, from the same field and from another.
* `store_whole`: a store that covers the object forgets what the storage held.
* `ext_of_load`: fields that cover an object determine it. -/

namespace MuchCoolEfi.Cxx.Storage

/-- `n` bytes. -/
abbrev Bytes (n : ℕ) := Vector UInt8 n

/-- `k` bytes inside an object of `n` bytes. -/
structure Field (n k : ℕ) where
  offset : ℕ
  fits : offset + k ≤ n

variable {n k l : ℕ}

namespace Field

/-- The byte `i` of the object belongs to the field. -/
def Mem (f : Field n k) (i : ℕ) : Prop := f.offset ≤ i ∧ i < f.offset + k

instance (f : Field n k) (i : ℕ) : Decidable (f.Mem i) := inferInstanceAs (Decidable (_ ∧ _))

/-- Where the byte `i` of the field lies in the object. -/
def index (f : Field n k) (i : Fin k) : Fin n :=
  ⟨f.offset + i, by have := f.fits; omega⟩

/-- Which byte of the field the byte `i` of the object is. -/
def position (f : Field n k) {i : ℕ} (h : f.Mem i) : Fin k :=
  ⟨i - f.offset, by obtain ⟨h1, h2⟩ := h; omega⟩

/-- The two fields share no byte. -/
def Disjoint (f : Field n k) (g : Field n l) : Prop :=
  f.offset + k ≤ g.offset ∨ g.offset + l ≤ f.offset

/-- The first `k` bytes: where every member of a union lies. -/
def first (h : k ≤ n) : Field n k := ⟨0, by omega⟩

/-- What comes after the first `k` bytes. -/
def rest (h : k ≤ n) : Field n (n - k) := ⟨k, by omega⟩

/-- The whole object. -/
def whole : Field n n := ⟨0, by omega⟩

theorem mem_whole (i : Fin n) : (whole : Field n n).Mem i :=
  ⟨Nat.zero_le _, Nat.lt_of_lt_of_eq i.isLt (Nat.zero_add n).symm⟩

/-- One byte. -/
def byte (i : Fin n) : Field n 1 := ⟨i, i.isLt⟩

/-- A field of a field. -/
def comp (f : Field n k) (g : Field k l) : Field n l :=
  ⟨f.offset + g.offset, by have := f.fits; have := g.fits; omega⟩

/-- Bytes apart from the outer field are apart from the inner. -/
theorem Disjoint.comp {f : Field n k} {f' : Field n l} (h : f.Disjoint f') {j : ℕ}
    (g : Field k j) : (f.comp g).Disjoint f' := by
  have hg := g.fits
  unfold Disjoint at h ⊢
  simp only [Field.comp]
  omega

theorem comp_disjoint_comp (f : Field n k) {j : ℕ} {g : Field k l} {g' : Field k j}
    (h : g.Disjoint g') : (f.comp g).Disjoint (f.comp g') := by
  unfold Disjoint at h ⊢
  simp only [Field.comp]
  omega

theorem Disjoint.symm {f : Field n k} {g : Field n l} (h : f.Disjoint g) : g.Disjoint f :=
  Or.symm h

end Field

/-- Read a field. -/
def load (f : Field n k) (s : Bytes n) : Bytes k :=
  .ofFn fun i => s[f.index i]

/-- Write a field; every other byte keeps what the storage held. -/
def store (f : Field n k) (v : Bytes k) (s : Bytes n) : Bytes n :=
  .ofFn fun i => if h : f.Mem i then v[f.position h] else s[i]

theorem getElem_load (f : Field n k) (s : Bytes n) {i : ℕ} (hi : i < k) (h : f.offset + i < n) :
    (load f s)[i] = s[f.offset + i] := by
  simp [load, Field.index]

theorem getElem_store_of_mem (f : Field n k) (v : Bytes k) (s : Bytes n) {i : ℕ} (hi : i < n)
    (h : f.Mem i) (hk : i - f.offset < k) : (store f v s)[i] = v[i - f.offset] := by
  simp [store, h, Field.position]

theorem getElem_store_of_not_mem (f : Field n k) (v : Bytes k) (s : Bytes n) {i : ℕ} (hi : i < n)
    (h : ¬ f.Mem i) : (store f v s)[i] = s[i] := by
  simp [store, h]

/-- **A field holds what was stored in it last.** -/
@[simp] theorem load_store (f : Field n k) (v : Bytes k) (s : Bytes n) :
    load f (store f v s) = v := by
  refine Vector.ext fun i hi => ?_
  have hn := f.fits
  have hm : f.Mem (f.offset + i) := ⟨by omega, by omega⟩
  rw [getElem_load _ _ hi (by omega), getElem_store_of_mem _ _ _ _ hm (by omega)]
  simp

/-- **A store leaves the other fields alone.** -/
theorem load_store_of_disjoint {f : Field n k} {g : Field n l} (h : g.Disjoint f) (v : Bytes k)
    (s : Bytes n) : load g (store f v s) = load g s := by
  refine Vector.ext fun i hi => ?_
  have hn := g.fits
  have hm : ¬ f.Mem (g.offset + i) := by
    rintro ⟨h1, h2⟩
    rcases h with h | h <;> omega
  rw [getElem_load _ _ hi (by omega), getElem_load _ _ hi (by omega),
    getElem_store_of_not_mem _ _ _ _ hm]

@[simp] theorem load_whole (s : Bytes n) : load Field.whole s = s := by
  refine Vector.ext fun i hi => ?_
  simp [load, Field.index, Field.whole]

/-- **A store that covers the object forgets what the storage held.** -/
@[simp] theorem store_whole (v s : Bytes n) : store Field.whole v s = v := by
  rw [← load_whole (store Field.whole v s), load_store]

theorem load_comp (f : Field n k) (g : Field k l) (s : Bytes n) :
    load (f.comp g) s = load g (load f s) := by
  refine Vector.ext fun i hi => ?_
  simp [load, Field.index, Field.comp, Nat.add_assoc]

/-! ### Fields that cover an object -/

/-- **Two objects that agree on fields covering all bytes are equal.** -/
theorem ext_of_load {s t : Bytes n}
    (h : ∀ i < n, ∃ (k : ℕ) (f : Field n k), f.Mem i ∧ load f s = load f t) : s = t := by
  refine Vector.ext fun i hi => ?_
  obtain ⟨k, f, hm, he⟩ := h i hi
  obtain ⟨h1, h2⟩ := hm
  have hk : i - f.offset < k := by omega
  have := congrArg (fun v : Bytes k => v[i - f.offset]) he
  simpa only [getElem_load _ _ hk (by omega : f.offset + (i - f.offset) < n),
    Nat.add_sub_cancel' h1] using this

/-- An object is its first `k` bytes and the rest. -/
theorem eq_iff_first_rest (h : k ≤ n) {s t : Bytes n} :
    s = t ↔ load (Field.first h) s = load (Field.first h) t ∧
      load (Field.rest h) s = load (Field.rest h) t := by
  constructor
  · rintro rfl; exact ⟨rfl, rfl⟩
  · rintro ⟨h1, h2⟩
    refine ext_of_load fun i hi => ?_
    by_cases hik : i < k
    · exact ⟨k, Field.first h, ⟨Nat.zero_le _, by simpa [Field.first] using hik⟩, h1⟩
    · refine ⟨n - k, Field.rest h, ⟨by simpa [Field.rest] using hik, ?_⟩, h2⟩
      simp only [Field.rest]
      omega

end MuchCoolEfi.Cxx.Storage
