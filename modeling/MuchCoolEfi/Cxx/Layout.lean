import Mathlib.Data.PNat.Basic
import MuchCoolEfi.Cxx.Storage

/-! # The layout of classes and unions

A `TypeLayout` is the size and the alignment of an object type, the alignment positive and dividing the
size. Members of a class are placed one after the other, each at the next multiple of its alignment;
under `#pragma pack(p)` no member is aligned beyond `p`. A base class subobject is the first member.

* `offset_add_size_le`, `place_add_size_le_place`: members lie inside the object, in order and without
  overlap, so each `member` is a `Field` of the object and different ones are disjoint
  (`member_disjoint`).
* `packed_offset`, `packed_size`: under `pack(1)` there is no padding, an offset is the sum of the
  sizes before it. -/

namespace MuchCoolEfi.Cxx.Layout

open MuchCoolEfi.Cxx.Storage

/-- Size and alignment of an object type. -/
structure TypeLayout where
  size : ℕ
  align : ℕ
  align_pos : 0 < align
  align_dvd : align ∣ size

/-- The next multiple of `a`. -/
def roundUp (n a : ℕ) : ℕ := (n + (a - 1)) / a * a

theorem le_roundUp {n a : ℕ} (ha : 0 < a) : n ≤ roundUp n a := by
  have h := Nat.div_add_mod (n + (a - 1)) a
  have hm := Nat.mod_lt (n + (a - 1)) ha
  rw [Nat.mul_comm] at h
  unfold roundUp
  omega

theorem dvd_roundUp (n a : ℕ) : a ∣ roundUp n a := Nat.dvd_mul_left _ _

@[simp] theorem roundUp_one (n : ℕ) : roundUp n 1 = n := by simp [roundUp]

/-! ### Scalars, arrays, classes, unions -/

/-- A scalar type is aligned to its size. -/
def scalar (size : ℕ) (h : 0 < size) : TypeLayout := ⟨size, size, h, dvd_rfl⟩

def uint8 : TypeLayout := scalar 1 (by decide)
def uint16 : TypeLayout := scalar 2 (by decide)
def uint32 : TypeLayout := scalar 4 (by decide)
def uint64 : TypeLayout := scalar 8 (by decide)

/-- `std::array<T, len>`. -/
def array (len : ℕ) (t : TypeLayout) : TypeLayout :=
  ⟨len * t.size, t.align, t.align_pos, t.align_dvd.mul_left len⟩

/-- `#pragma pack`: the largest alignment a member gets, if there is one. -/
abbrev Packing := Option ℕ+

/-- The alignment of a member. -/
def memberAlign (pack : Packing) (t : TypeLayout) : ℕ :=
  match pack with
  | none => t.align
  | some p => min p t.align

theorem memberAlign_pos (pack : Packing) (t : TypeLayout) : 0 < memberAlign pack t := by
  cases pack with
  | none => exact t.align_pos
  | some p => exact lt_min p.pos t.align_pos

/-- The offsets of the members, the first of them placed at `pos` or later. -/
def place (pack : Packing) : ℕ → List TypeLayout → List ℕ
  | _, [] => []
  | pos, t :: ts =>
    roundUp pos (memberAlign pack t) ::
      place pack (roundUp pos (memberAlign pack t) + t.size) ts

/-- Where the last member ends. -/
def endOf (pack : Packing) : ℕ → List TypeLayout → ℕ
  | pos, [] => pos
  | pos, t :: ts => endOf pack (roundUp pos (memberAlign pack t) + t.size) ts

/-- The alignment of a class or a union. -/
def alignOf (pack : Packing) (ts : List TypeLayout) : ℕ :=
  ts.foldr (fun t a => max (memberAlign pack t) a) 1

theorem alignOf_pos (pack : Packing) : ∀ ts, 0 < alignOf pack ts
  | [] => Nat.one_pos
  | _ :: ts => lt_max_of_lt_right (alignOf_pos pack ts)

/-- A class with the given members. -/
def record (pack : Packing) (ts : List TypeLayout) : TypeLayout :=
  ⟨roundUp (endOf pack 0 ts) (alignOf pack ts), alignOf pack ts, alignOf_pos pack ts,
    dvd_roundUp _ _⟩

/-- A union with the given members. -/
def union (ts : List TypeLayout) : TypeLayout :=
  ⟨roundUp (ts.foldr (fun t s => max t.size s) 0) (alignOf none ts), alignOf none ts,
    alignOf_pos none ts, dvd_roundUp _ _⟩

/-- The offsets of the members of a class. -/
def offsets (pack : Packing) (ts : List TypeLayout) : List ℕ := place pack 0 ts

/-! ### Members do not overlap -/

@[simp] theorem length_place (pack : Packing) : ∀ ts pos, (place pack pos ts).length = ts.length
  | [], _ => rfl
  | t :: ts, pos => by simp [place, length_place pack ts]

@[simp] theorem length_offsets (pack : Packing) (ts : List TypeLayout) :
    (offsets pack ts).length = ts.length := length_place pack ts 0

theorem le_endOf (pack : Packing) : ∀ ts pos, pos ≤ endOf pack pos ts
  | [], _ => le_rfl
  | t :: ts, pos => by
    have h1 := le_roundUp (n := pos) (memberAlign_pos pack t)
    have h2 := le_endOf pack ts (roundUp pos (memberAlign pack t) + t.size)
    rw [endOf]
    omega

theorem le_place (pack : Packing) : ∀ (ts : List TypeLayout) (pos i : ℕ)
    (h : i < (place pack pos ts).length), pos ≤ (place pack pos ts)[i]
  | t :: ts, pos, 0, _ => le_roundUp (memberAlign_pos pack t)
  | t :: ts, pos, i + 1, h => by
    have h1 := le_roundUp (n := pos) (memberAlign_pos pack t)
    have h2 := le_place pack ts _ i (Nat.lt_of_succ_lt_succ h)
    simp only [place, List.getElem_cons_succ]
    omega

theorem place_add_size_le (pack : Packing) : ∀ (ts : List TypeLayout) (pos i : ℕ)
    (h : i < (place pack pos ts).length) (hi : i < ts.length),
    (place pack pos ts)[i] + ts[i].size ≤ endOf pack pos ts
  | t :: ts, pos, 0, _, _ => le_endOf pack ts _
  | t :: ts, pos, i + 1, h, hi => by
    have h2 := place_add_size_le pack ts (roundUp pos (memberAlign pack t) + t.size) i
      (Nat.lt_of_succ_lt_succ h) (Nat.lt_of_succ_lt_succ hi)
    simpa only [place, endOf, List.getElem_cons_succ] using h2

theorem place_add_size_le_place (pack : Packing) : ∀ (ts : List TypeLayout) (pos i j : ℕ)
    (hi : i < (place pack pos ts).length) (ht : i < ts.length) (hj : j < (place pack pos ts).length),
    i < j → (place pack pos ts)[i] + ts[i].size ≤ (place pack pos ts)[j]
  | t :: ts, pos, 0, j + 1, _, _, hj, _ => by
    simpa only [place, List.getElem_cons_zero, List.getElem_cons_succ] using
      le_place pack ts _ j (Nat.lt_of_succ_lt_succ hj)
  | t :: ts, pos, i + 1, j + 1, hi, ht, hj, hij => by
    simpa only [place, List.getElem_cons_succ] using
      place_add_size_le_place pack ts (roundUp pos (memberAlign pack t) + t.size) i j
        (Nat.lt_of_succ_lt_succ hi) (Nat.lt_of_succ_lt_succ ht) (Nat.lt_of_succ_lt_succ hj)
        (Nat.lt_of_succ_lt_succ hij)

/-- **Every member lies inside the object.** -/
theorem offset_add_size_le (pack : Packing) (ts : List TypeLayout) {i : ℕ}
    (h : i < (offsets pack ts).length) (hi : i < ts.length) :
    (offsets pack ts)[i] + ts[i].size ≤ (record pack ts).size :=
  (place_add_size_le pack ts 0 i h hi).trans (le_roundUp (alignOf_pos pack ts))

/-- The member `i` of a class, as a field of its objects. -/
def member (pack : Packing) (ts : List TypeLayout) (i : Fin ts.length) :
    Field (record pack ts).size ts[i].size :=
  have h : i < (offsets pack ts).length := by simp
  ⟨(offsets pack ts)[i], offset_add_size_le pack ts h i.isLt⟩

/-- **Different members share no byte.** -/
theorem member_disjoint (pack : Packing) (ts : List TypeLayout) {i j : Fin ts.length} (h : i ≠ j) :
    (member pack ts i).Disjoint (member pack ts j) := by
  have hi : i < (offsets pack ts).length := by simp
  have hj : j < (offsets pack ts).length := by simp
  rcases Nat.lt_or_gt_of_ne (Fin.val_ne_of_ne h) with h | h
  · exact Or.inl (place_add_size_le_place pack ts 0 i j hi i.isLt hj h)
  · exact Or.inr (place_add_size_le_place pack ts 0 j i hj j.isLt hi h)

/-! ### Members of a union lie at its start -/

theorem size_le_foldr_max : ∀ (ts : List TypeLayout) (i : ℕ) (h : i < ts.length),
    ts[i].size ≤ ts.foldr (fun t s => max t.size s) 0
  | _ :: _, 0, _ => le_max_left _ _
  | _ :: ts, i + 1, h =>
    (size_le_foldr_max ts i (Nat.lt_of_succ_lt_succ h)).trans (le_max_right _ _)

/-- The member `i` of a union, as a field of its objects. -/
def unionMember (ts : List TypeLayout) (i : Fin ts.length) : Field (union ts).size ts[i].size :=
  Field.first ((size_le_foldr_max ts i i.isLt).trans (le_roundUp (alignOf_pos none ts)))

/-! ### Packed classes -/

/-- `#pragma pack(1)`. -/
def pack1 : Packing := some 1

theorem memberAlign_pack1 (t : TypeLayout) : memberAlign pack1 t = 1 :=
  Nat.min_eq_left t.align_pos

theorem alignOf_pack1 : ∀ ts, alignOf pack1 ts = 1
  | [] => rfl
  | t :: ts => by
    have h := alignOf_pack1 ts
    unfold alignOf at h ⊢
    rw [List.foldr_cons, h, memberAlign_pack1, max_self]

theorem packed_place : ∀ (ts : List TypeLayout) (pos i : ℕ) (h : i < (place pack1 pos ts).length),
    (place pack1 pos ts)[i] = pos + ((ts.take i).map TypeLayout.size).sum
  | t :: ts, pos, 0, _ => by simp [place, memberAlign_pack1]
  | t :: ts, pos, i + 1, h => by
    have ih := packed_place ts (roundUp pos (memberAlign pack1 t) + t.size) i
      (Nat.lt_of_succ_lt_succ h)
    simp only [place, List.getElem_cons_succ, List.take_succ_cons, List.map_cons, List.sum_cons]
    rw [ih, memberAlign_pack1, roundUp_one]
    omega

theorem packed_endOf : ∀ (ts : List TypeLayout) (pos : ℕ),
    endOf pack1 pos ts = pos + (ts.map TypeLayout.size).sum
  | [], pos => by simp [endOf]
  | t :: ts, pos => by
    rw [endOf, packed_endOf ts, memberAlign_pack1, roundUp_one, List.map_cons, List.sum_cons]
    omega

/-- **In a packed class a member begins where the members before it end.** -/
theorem packed_offset (ts : List TypeLayout) {i : ℕ} (h : i < (offsets pack1 ts).length) :
    (offsets pack1 ts)[i] = ((ts.take i).map TypeLayout.size).sum := by
  rw [← Nat.zero_add (List.sum _)]
  exact packed_place ts 0 i h

/-- **A packed class has the size of its members.** -/
theorem packed_size (ts : List TypeLayout) :
    (record pack1 ts).size = (ts.map TypeLayout.size).sum := by
  simp [record, alignOf_pack1, packed_endOf]

end MuchCoolEfi.Cxx.Layout
