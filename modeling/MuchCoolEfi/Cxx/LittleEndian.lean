import Mathlib.Data.Nat.Digits.Lemmas
import Mathlib.Tactic.IntervalCases
import MuchCoolEfi.Cxx.Storage

/-! # Integers in little-endian storage

`encode k v` writes the low `8 k` bits of `v` into `k` bytes, least significant byte first, and
`decode` reads them back; `decode` is Mathlib's `Nat.ofDigits` in base 256. On `k` bytes the two are
inverse to each other below `256 ^ k` (`decode_encode`, `encode_decode`), so the value of an
integer member and its bytes determine one another (`decode_inj`). -/

namespace MuchCoolEfi.Cxx.LittleEndian

open MuchCoolEfi.Cxx.Storage

variable {k : ℕ}

/-- The `k` bytes of `v`, least significant first. -/
def encode (k v : ℕ) : Bytes k := .ofFn fun i => UInt8.ofNat (v / 256 ^ i.val)

/-- The number in `k` bytes, least significant first. -/
def decode (s : Bytes k) : ℕ := Nat.ofDigits 256 (s.toList.map UInt8.toNat)

theorem digit_lt {s : Bytes k} {d : ℕ} (h : d ∈ s.toList.map UInt8.toNat) : d < 256 := by
  obtain ⟨b, -, rfl⟩ := List.mem_map.mp h
  exact b.toNat_lt

theorem decode_lt (s : Bytes k) : decode s < 256 ^ k := by
  have h := Nat.ofDigits_lt_base_pow_length (b := 256) (by norm_num) (fun d => digit_lt (s := s))
  simpa [decode] using h

/-- **The bytes of an integer are determined by its value.** -/
theorem decode_inj {s t : Bytes k} : decode s = decode t ↔ s = t := by
  constructor
  · intro h
    have hl := Nat.ofDigits_inj_of_len_eq (b := 256) (by norm_num) (by simp)
      (fun d => digit_lt (s := s)) (fun d => digit_lt (s := t)) h
    have hm : Function.Injective UInt8.toNat := fun a b => UInt8.toNat_inj.mp
    exact Vector.toList_inj.mp (List.map_injective_iff.mpr hm hl)
  · rintro rfl; rfl

theorem ofDigits_digits (v : ℕ) : ∀ k,
    Nat.ofDigits 256 ((List.range k).map fun i => v / 256 ^ i % 256) = v % 256 ^ k
  | 0 => by simp [Nat.mod_one]
  | k + 1 => by
    rw [List.range_succ, List.map_append, Nat.ofDigits_append, ofDigits_digits v k]
    simp only [List.map_cons, List.map_nil, Nat.ofDigits_singleton, List.length_map,
      List.length_range]
    rw [pow_succ, Nat.mod_mul]

/-- **Reading back an integer** gives its low `8 k` bits. -/
theorem decode_encode (k v : ℕ) : decode (encode k v) = v % 256 ^ k := by
  have h : (encode k v).toList.map UInt8.toNat = (List.range k).map fun i => v / 256 ^ i % 256 := by
    refine List.ext_getElem (by simp) fun i h1 h2 => ?_
    simp [encode]
  rw [decode, h, ofDigits_digits]

theorem decode_encode_of_lt {v : ℕ} (h : v < 256 ^ k) : decode (encode k v) = v := by
  rw [decode_encode, Nat.mod_eq_of_lt h]

/-- Writing the integer read from some bytes restores them. -/
theorem encode_decode (s : Bytes k) : encode k (decode s) = s :=
  decode_inj.mp (decode_encode_of_lt (decode_lt s))

/-! ### The fixed-width members -/

theorem decode_two (s : Bytes 2) : decode s = s[0].toNat + 256 * s[1].toNat := by
  have hs : s.toList = [s[0], s[1]] := by
    refine List.ext_getElem (by simp) fun i h1 h2 => ?_
    simp only [Vector.length_toList] at h1
    interval_cases i <;> rfl
  simp [decode, hs, Nat.ofDigits_cons]

theorem decode_four (s : Bytes 4) : decode s =
    s[0].toNat + 256 * (s[1].toNat + 256 * (s[2].toNat + 256 * s[3].toNat)) := by
  have hs : s.toList = [s[0], s[1], s[2], s[3]] := by
    refine List.ext_getElem (by simp) fun i h1 h2 => ?_
    simp only [Vector.length_toList] at h1
    interval_cases i <;> rfl
  simp [decode, hs, Nat.ofDigits_cons]

/-- A `uint8_t` in one byte. -/
def loadU8 (s : Bytes 1) : UInt8 := s.get ⟨0, Nat.one_pos⟩

/-- A `uint16_t` in two bytes. -/
def loadU16 (s : Bytes 2) : UInt16 := UInt16.ofNat (decode s)

/-- A `uint32_t` in four bytes. -/
def loadU32 (s : Bytes 4) : UInt32 := UInt32.ofNat (decode s)

/-- A `uint64_t` or a pointer in eight bytes. -/
def loadU64 (s : Bytes 8) : UInt64 := UInt64.ofNat (decode s)

theorem toNat_loadU16 (s : Bytes 2) : (loadU16 s).toNat = decode s := by
  rw [loadU16, UInt16.toNat_ofNat_of_lt' (decode_lt s)]

theorem toNat_loadU32 (s : Bytes 4) : (loadU32 s).toNat = decode s := by
  rw [loadU32, UInt32.toNat_ofNat_of_lt' (decode_lt s)]

theorem toNat_loadU64 (s : Bytes 8) : (loadU64 s).toNat = decode s := by
  rw [loadU64, UInt64.toNat_ofNat_of_lt' (decode_lt s)]

@[simp] theorem loadU16_encode (v : UInt16) : loadU16 (encode 2 v.toNat) = v := by
  rw [← UInt16.toNat_inj, toNat_loadU16, decode_encode_of_lt v.toNat_lt]

@[simp] theorem loadU32_encode (v : UInt32) : loadU32 (encode 4 v.toNat) = v := by
  rw [← UInt32.toNat_inj, toNat_loadU32, decode_encode_of_lt v.toNat_lt]

@[simp] theorem loadU64_encode (v : UInt64) : loadU64 (encode 8 v.toNat) = v := by
  rw [← UInt64.toNat_inj, toNat_loadU64, decode_encode_of_lt v.toNat_lt]

theorem loadU8_inj {s t : Bytes 1} : loadU8 s = loadU8 t ↔ s = t := by
  constructor
  · intro h
    refine Vector.ext fun i hi => ?_
    obtain rfl : i = 0 := by omega
    exact h
  · rintro rfl; rfl

theorem loadU16_inj {s t : Bytes 2} : loadU16 s = loadU16 t ↔ s = t := by
  rw [← UInt16.toNat_inj, toNat_loadU16, toNat_loadU16, decode_inj]

theorem loadU32_inj {s t : Bytes 4} : loadU32 s = loadU32 t ↔ s = t := by
  rw [← UInt32.toNat_inj, toNat_loadU32, toNat_loadU32, decode_inj]

theorem loadU64_inj {s t : Bytes 8} : loadU64 s = loadU64 t ↔ s = t := by
  rw [← UInt64.toNat_inj, toNat_loadU64, toNat_loadU64, decode_inj]

end MuchCoolEfi.Cxx.LittleEndian
