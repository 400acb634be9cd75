import MuchCoolEfi.Cxx.Contiguous
import MuchCoolEfi.Cxx.Record

/-! # Flat memory

All objects in one address space of bytes. `readAt` and `writeAt` compute addresses in wrapping 64-bit
arithmetic, as code does; a `Place n` is `n` bytes that end inside the address space, and for these
reading and writing are what they are for an object: what was written is read
(`readAt_writeAt_self`), and elsewhere nothing changes (`readAt_writeAt_of_apart`).

The last sections are about a member of an object behind a pointer, about the bytes that decide some
parts of an object (`read_decided_iff`) and about the elements of an array. -/

namespace MuchCoolEfi.Cxx.FlatMemory

open MuchCoolEfi.Cxx.Storage MuchCoolEfi.Cxx.Contiguous MuchCoolEfi.Cxx.Parts MuchCoolEfi.Cxx.Record
open MuchCoolEfi.Cxx.Record.ClassType (typeOf field)

/-- The bytes of the address space. -/
abbrev Flat := Pointer → UInt8

/-- `n` bytes of the address space. -/
@[ext] structure Place (n : ℕ) where
  start : Pointer
  in_space : start.toNat + n < 2 ^ 64

/-- The `n` bytes from `p` on. -/
def readAt (n : ℕ) (p : Pointer) (m : Flat) : Bytes n := .ofFn fun i => m (p + UInt64.ofNat i)

/-- The memory after `v` was written to the bytes from `p` on. -/
def writeAt {n : ℕ} (p : Pointer) (v : Bytes n) (m : Flat) : Flat :=
  fun a => if h : (a - p).toNat < n then v[(a - p).toNat] else m a

variable {n k l : ℕ}

theorem getElem_readAt (p : Pointer) (m : Flat) {i : ℕ} (h : i < n) :
    (readAt n p m)[i] = m (p + UInt64.ofNat i) := by
  simp [readAt]

/-- Only the bytes read matter. -/
theorem readAt_congr {p : Pointer} {m m' : Flat}
    (h : ∀ i < n, m (p + UInt64.ofNat i) = m' (p + UInt64.ofNat i)) :
    readAt n p m = readAt n p m' := by
  refine Vector.ext fun i hi => ?_
  rw [getElem_readAt _ _ hi, getElem_readAt _ _ hi, h i hi]

/-- Reading a part of what lies at `p`. -/
theorem readAt_add (p : Pointer) (f : Field n k) (m : Flat) :
    readAt k (p + UInt64.ofNat f.offset) m = load f (readAt n p m) := by
  refine Vector.ext fun i hi => ?_
  have hf := f.fits
  rw [getElem_readAt _ _ hi, getElem_load _ _ hi (by omega), getElem_readAt, UInt64.add_assoc,
    ← UInt64.ofNat_add]

namespace Place

/-- The address is that of one of the bytes. -/
def Covers (p : Place n) (a : Pointer) : Prop :=
  p.start.toNat ≤ a.toNat ∧ a.toNat < p.start.toNat + n

/-- The two places share no byte. -/
def Apart (p : Place n) (q : Place k) : Prop :=
  p.start.toNat + n ≤ q.start.toNat ∨ q.start.toNat + k ≤ p.start.toNat

theorem Apart.symm {p : Place n} {q : Place k} (h : p.Apart q) : q.Apart p := Or.symm h

theorem toNat_add (p : Place n) {i : ℕ} (h : i ≤ n) :
    (p.start + UInt64.ofNat i).toNat = p.start.toNat + i := by
  have hs := p.in_space
  rw [UInt64.toNat_add, UInt64.toNat_ofNat', Nat.mod_eq_of_lt (a := i) (by omega),
    Nat.mod_eq_of_lt (by omega)]

/-- The place of a part. -/
def sub (p : Place n) (f : Field n k) : Place k where
  start := p.start + UInt64.ofNat f.offset
  in_space := by
    have hs := p.in_space
    have hf := f.fits
    rw [p.toNat_add (by omega)]
    omega

theorem toNat_sub_start (p : Place n) (f : Field n k) :
    (p.sub f).start.toNat = p.start.toNat + f.offset := by
  have hf := f.fits
  exact p.toNat_add (by omega)

/-- What is apart from the whole is apart from a part. -/
theorem Apart.sub {p : Place n} {q : Place k} (h : p.Apart q) (f : Field n l) :
    (p.sub f).Apart q := by
  have hs := p.toNat_sub_start f
  have hf := f.fits
  unfold Apart at h ⊢
  omega

theorem apart_sub_of_disjoint (p : Place n) {f : Field n k} {g : Field n l} (h : f.Disjoint g) :
    (p.sub f).Apart (p.sub g) := by
  have hf := p.toNat_sub_start f
  have hg := p.toNat_sub_start g
  unfold Field.Disjoint at h
  unfold Apart
  omega

/-- The wrapping difference tells the bytes of a place from all others. -/
theorem toNat_sub_lt_iff (p : Place n) {a : Pointer} :
    (a - p.start).toNat < n ↔ p.Covers a := by
  have hs := p.in_space
  have ha := a.toNat_lt
  have hp := p.start.toNat_lt
  unfold Covers
  rw [UInt64.toNat_sub]
  omega

theorem toNat_sub_of_covers {p : Place n} {a : Pointer} (h : p.Covers a) :
    (a - p.start).toNat = a.toNat - p.start.toNat := by
  have ha := a.toNat_lt
  obtain ⟨h1, h2⟩ := h
  rw [UInt64.toNat_sub]
  omega

/-- The bytes of a place are those counted from its start. -/
theorem covers_iff {p : Place n} {a : Pointer} :
    p.Covers a ↔ ∃ i : Fin n, a = p.start + UInt64.ofNat i := by
  constructor
  · intro h
    refine ⟨⟨(a - p.start).toNat, p.toNat_sub_lt_iff.mpr h⟩, ?_⟩
    show a = p.start + UInt64.ofNat (a - p.start).toNat
    rw [UInt64.ofNat_toNat, UInt64.add_comm, UInt64.sub_add_cancel]
  · rintro ⟨i, rfl⟩
    have ha := p.toNat_add (Nat.le_of_lt i.isLt)
    have hi := i.isLt
    unfold Covers
    omega

/-- What is read at a place is decided by its bytes. -/
theorem readAt_of_agree (p : Place n) {m m' : Flat} (h : ∀ a, p.Covers a → m' a = m a) :
    readAt n p.start m' = readAt n p.start m :=
  readAt_congr fun i hi => h _ (p.covers_iff.mpr ⟨⟨i, hi⟩, rfl⟩)

end Place

/-! ### Writing at a place -/

section Write

variable (p : Place n) (v : Bytes n) (m : Flat)

theorem writeAt_of_not_covers {a : Pointer} (h : ¬ p.Covers a) : writeAt p.start v m a = m a :=
  dif_neg fun hn => h (p.toNat_sub_lt_iff.mp hn)

theorem writeAt_of_covers {a : Pointer} (h : p.Covers a) (hi : a.toNat - p.start.toNat < n) :
    writeAt p.start v m a = v[a.toNat - p.start.toNat] := by
  have hd := Place.toNat_sub_of_covers h
  unfold writeAt
  rw [dif_pos (p.toNat_sub_lt_iff.mpr h)]
  simp only [hd]

/-- **What was written is read.** -/
@[simp] theorem readAt_writeAt_self : readAt n p.start (writeAt p.start v m) = v := by
  refine Vector.ext fun i hi => ?_
  have ha := p.toNat_add (Nat.le_of_lt hi)
  have hc : p.Covers (p.start + UInt64.ofNat i) := by
    unfold Place.Covers
    omega
  rw [getElem_readAt _ _ hi, writeAt_of_covers p v m hc (by omega)]
  congr 1
  omega

/-- **Elsewhere nothing changes.** -/
theorem readAt_writeAt_of_apart {q : Place k} (h : q.Apart p) :
    readAt k q.start (writeAt p.start v m) = readAt k q.start m := by
  refine Vector.ext fun i hi => ?_
  have ha := q.toNat_add (Nat.le_of_lt hi)
  rw [getElem_readAt _ _ hi, getElem_readAt _ _ hi]
  refine writeAt_of_not_covers p v m ?_
  rintro ⟨h1, h2⟩
  rcases h with h | h <;> omega

end Write

/-! ### Members behind a pointer -/

/-- `p->member`. -/
def memberAt {c : ClassType} (i : c.Member) (p : Pointer) (m : Flat) : (typeOf i).Value :=
  (typeOf i).decode (readAt (typeOf i).layout.size (p + UInt64.ofNat (field i).offset) m)

theorem memberAt_eq {c : ClassType} (i : c.Member) (p : Pointer) (m : Flat) :
    memberAt i p m = c.parts.read (readAt c.size p m) i := by
  unfold memberAt
  rw [readAt_add]
  rfl

/-- A member depends on the bytes of its object. -/
theorem memberAt_congr {c : ClassType} (i : c.Member) {p : Pointer} {m m' : Flat}
    (h : readAt c.size p m' = readAt c.size p m) : memberAt i p m' = memberAt i p m := by
  rw [memberAt_eq, memberAt_eq, h]

/-! ### The bytes that decide some parts -/

/-- **Some parts are decided by the first `k` bytes** exactly if they end there. -/
theorem read_decided_iff {ι : Type} (P : PartsOf n ι) (hn : n < 2 ^ 64) (S : Set ι) (p : Pointer)
    (m : Flat) : (∀ m' : Flat, (∀ j < k, m' (p + UInt64.ofNat j) = m (p + UInt64.ofNat j)) →
        ∀ i ∈ S, P.read (readAt n p m') i = P.read (readAt n p m) i) ↔
      ∀ i ∈ S, 0 < (P.type i).layout.size → (P.field i).offset + (P.type i).layout.size ≤ k := by
  constructor
  · intro h i hi hpos
    by_contra hk
    have hf := (P.field i).fits
    -- another memory, with another last byte of the part
    let q := p + UInt64.ofNat ((P.field i).offset + ((P.type i).layout.size - 1))
    have hq : (if m q = 0 then (1 : UInt8) else 0) ≠ m q ∧
        ((if m q = 0 then (1 : UInt8) else 0) = 0 ∨ m q = 0) := by
      by_cases h0 : m q = 0
      · rw [if_pos h0, h0]
        decide
      · rw [if_neg h0]
        exact ⟨Ne.symm h0, Or.inl rfl⟩
    have hread := h (Function.update m q (if m q = 0 then 1 else 0)) (fun j hj => ?_) i hi
    · have hlast (m' : Flat) : (load (P.field i) (readAt n p m'))[(P.type i).layout.size - 1] = m' q := by
        rw [getElem_load _ _ (by omega) (by omega), getElem_readAt]
      have he := MemberType.getElem_eq_of_decode (Nat.sub_one_lt (Nat.ne_of_gt hpos)) ?_ hread
      · rw [hlast, hlast, Function.update_self] at he
        exact hq.1 he
      · rw [hlast, hlast, Function.update_self]
        exact hq.2
    · refine Function.update_of_ne (fun he => ?_) _ _
      have hj' := congrArg UInt64.toNat ((UInt64.add_right_inj p).mp he)
      rw [UInt64.toNat_ofNat', UInt64.toNat_ofNat', Nat.mod_eq_of_lt (by omega),
        Nat.mod_eq_of_lt (by omega)] at hj'
      omega
  · intro h m' hm i hi
    have hload : load (P.field i) (readAt n p m') = load (P.field i) (readAt n p m) := by
      refine Vector.ext fun j hj => ?_
      have hf := (P.field i).fits
      have hend := h i hi (by omega)
      rw [getElem_load _ _ hj (by omega), getElem_load _ _ hj (by omega), getElem_readAt,
        getElem_readAt]
      exact hm _ (by omega)
    exact congrArg (P.type i).decode hload

/-! ### Elements of an array -/

/-- The element `i` of an array of `n` elements of `w` bytes. -/
def elementField {w : ℕ} (i : Fin n) : Field (w * n) w :=
  ⟨w * i, by
    have h := Nat.mul_le_mul_left w (Nat.succ_le_of_lt i.isLt)
    rw [Nat.mul_succ] at h
    exact h⟩

theorem elementField_disjoint {w : ℕ} {i j : Fin n} (h : i ≠ j) :
    (elementField (w := w) i).Disjoint (elementField j) := by
  rcases Nat.lt_or_gt_of_ne (Fin.val_ne_of_ne h) with h | h
  · have hle := Nat.mul_le_mul_left w (Nat.succ_le_of_lt h)
    rw [Nat.mul_succ] at hle
    exact Or.inl hle
  · have hle := Nat.mul_le_mul_left w (Nat.succ_le_of_lt h)
    rw [Nat.mul_succ] at hle
    exact Or.inr hle

end MuchCoolEfi.Cxx.FlatMemory
