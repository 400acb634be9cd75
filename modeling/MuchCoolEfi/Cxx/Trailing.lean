import MuchCoolEfi.Cxx.FlatMemory

/-! # Arrays at the end of an object

Some classes end in an array `table_[1]` that stands for as many elements as another member counts:
the class is declared with one, an object is allocated with room for all, and a member function gives
them out as a span. An `ArrayAtEnd` is such a class. Nothing in it checks the count against the
allocation, so the span lies in the allocation exactly if there is room (`covers_iff`).

Where there is, elements may be assigned to one another through the span, in any number of steps:
what precedes the array never changes, hence the span is the same each time it is asked for, and its
elements are what the same assignments make of a list (`contents_run`). -/

namespace MuchCoolEfi.Cxx.Trailing

open MuchCoolEfi.Cxx.Storage MuchCoolEfi.Cxx.Contiguous MuchCoolEfi.Cxx.Run
open MuchCoolEfi.Cxx.Parts MuchCoolEfi.Cxx.Record MuchCoolEfi.Cxx.FlatMemory
open MuchCoolEfi.Cxx.Record.ClassType (typeOf field)

/-- A class with a member `table`, the array of elements, and an earlier member that counts them;
`toSize` is the conversion of the count to `size_t`. -/
structure ArrayAtEnd where
  cls : ClassType
  element : ClassType
  table : cls.Member
  count : cls.Member
  toSize : (typeOf count).Value → UInt64
  count_lt : count < table
  element_pos : 0 < element.size

namespace ArrayAtEnd

variable (T : ArrayAtEnd)

/-- Where the array begins. -/
abbrev offset : ℕ := (field T.table).offset

/-- The size of the span. -/
def size (this : Pointer) (m : Flat) : UInt64 := T.toSize (memberAt T.count this m)

/-- The address of the subscript `i` of the span. -/
def address (this : Pointer) (i : UInt64) : Pointer :=
  this + UInt64.ofNat T.offset + UInt64.ofNat T.element.size * i

/-- The values of the element at `p`. -/
def valueAt (p : Pointer) (m : Flat) : T.element.Values :=
  T.element.parts.read (readAt T.element.size p m)

/-- What the elements of the span hold, in order. -/
def contents (this : Pointer) (m : Flat) : List T.element.Values :=
  (List.range (T.size this m).toNat).map fun i => T.valueAt (T.address this (UInt64.ofNat i)) m

/-- `span[i] = span[j]`, member by member. -/
def assign (this : Pointer) (m : Flat) (a : UInt64 × UInt64) : Flat :=
  writeAt (T.address this a.1)
    (T.element.parts.write (T.valueAt (T.address this a.2) m)
      (readAt T.element.size (T.address this a.1) m)) m

/-- Both subscripts are below the size of the span. -/
def InRange (this : Pointer) (m : Flat) (a : UInt64 × UInt64) : Prop :=
  a.1 < T.size this m ∧ a.2 < T.size this m

/-- The same assignment in a list. -/
def listAssign {α : Type} (l : List α) (a : UInt64 × UInt64) : List α :=
  match l[a.2.toNat]? with
  | some v => l.set a.1.toNat v
  | none => l

@[simp] theorem length_contents (this : Pointer) (m : Flat) :
    (T.contents this m).length = (T.size this m).toNat := by
  simp [contents]

theorem getElem_contents (this : Pointer) (m : Flat) {x : ℕ}
    (hx : x < (T.contents this m).length) :
    (T.contents this m)[x] = T.valueAt (T.address this (UInt64.ofNat x)) m := by
  simp [contents]

/-! ### The span and the allocation -/

section Allocation

variable {T} {n : ℕ} (p : Place n) (m : Flat)

/-- The allocation has room for the elements. -/
def Room (T : ArrayAtEnd) (p : Place n) (m : Flat) : Prop :=
  T.offset + T.element.size * (T.size p.start m).toNat ≤ n

/-- The address is that of a byte of an element. -/
def ElementByte (T : ArrayAtEnd) (this : Pointer) (m : Flat) (a : Pointer) : Prop :=
  ∃ i < (T.size this m).toNat, ∃ b < T.element.size,
    a = T.address this (UInt64.ofNat i) + UInt64.ofNat b

theorem address_add (this : Pointer) (i b : ℕ) :
    T.address this (UInt64.ofNat i) + UInt64.ofNat b =
      this + UInt64.ofNat (T.offset + (T.element.size * i + b)) := by
  unfold address
  rw [UInt64.ofNat_add, UInt64.ofNat_add, UInt64.ofNat_mul, ← UInt64.add_assoc, ← UInt64.add_assoc]

theorem mul_add_lt {w i b k : ℕ} (hi : i < k) (hb : b < w) : w * i + b < w * k := by
  have h := Nat.mul_le_mul_left w (Nat.succ_le_of_lt hi)
  rw [Nat.mul_succ] at h
  omega

/-- **The elements lie in the allocation exactly if it has room for them.** -/
theorem covers_iff (ho : T.offset ≤ n) :
    (∀ a, ElementByte T p.start m a → p.Covers a) ↔ Room T p m := by
  have hs := p.in_space
  constructor
  · intro h
    by_contra hr
    unfold Room at hr
    -- the first byte after the allocation is one of an element
    have hw := T.element_pos
    have hlt : (n - T.offset) / T.element.size < (T.size p.start m).toNat :=
      Nat.div_lt_of_lt_mul (by omega)
    have hdm := Nat.div_add_mod (n - T.offset) T.element.size
    have ha : T.address p.start (UInt64.ofNat ((n - T.offset) / T.element.size)) +
        UInt64.ofNat ((n - T.offset) % T.element.size) = p.start + UInt64.ofNat n := by
      rw [address_add, hdm]
      congr 2
      omega
    have hc := h _ ⟨_, hlt, _, Nat.mod_lt _ hw, ha.symm⟩
    have hn := p.toNat_add (Nat.le_refl n)
    unfold Place.Covers at hc
    omega
  · rintro hr a ⟨i, hi, b, hb, rfl⟩
    have hlt := mul_add_lt hi hb
    unfold Room at hr
    rw [address_add]
    have ht := p.toNat_add (i := T.offset + (T.element.size * i + b)) (by omega)
    unfold Place.Covers
    omega

end Allocation

/-! ### Assignments through the span -/

section Assign

variable {T} {n : ℕ} {p : Place n} {m : Flat}

/-- The number of elements is stored before the array. -/
theorem size_congr {this : Pointer} {m' : Flat}
    (h : readAt T.offset this m' = readAt T.offset this m) : T.size this m' = T.size this m := by
  let f : Field T.offset (typeOf T.count).layout.size :=
    ⟨(field T.count).offset, ClassType.field_le_of_lt T.count_lt⟩
  have hc (m : Flat) : memberAt T.count this m =
      (typeOf T.count).decode (load f (readAt T.offset this m)) :=
    congrArg (typeOf T.count).decode (readAt_add this f m)
  unfold size
  rw [hc, hc, h]

/-- The place of what precedes the array. -/
def header (hr : Room T p m) : Place T.offset where
  start := p.start
  in_space := by
    have hs := p.in_space
    unfold Room at hr
    omega

/-- The place of the array. -/
def arrayPlace (hr : Room T p m) : Place (T.element.size * (T.size p.start m).toNat) :=
  p.sub ⟨T.offset, hr⟩

/-- The place of an element. -/
def elementPlace (hr : Room T p m) {i : UInt64} (hi : i < T.size p.start m) :
    Place T.element.size :=
  (arrayPlace hr).sub (elementField ⟨i.toNat, UInt64.lt_iff_toNat_lt.mp hi⟩)

variable (hr : Room T p m) {i j : UInt64}

theorem elementPlace_start (hi : i < T.size p.start m) :
    (elementPlace hr hi).start = T.address p.start i := by
  show p.start + UInt64.ofNat T.offset + UInt64.ofNat (T.element.size * i.toNat) =
    T.address p.start i
  rw [UInt64.ofNat_mul, UInt64.ofNat_toNat]
  rfl

theorem elementPlace_apart (hi : i < T.size p.start m) (hj : j < T.size p.start m) (h : i ≠ j) :
    (elementPlace hr hi).Apart (elementPlace hr hj) := by
  refine (arrayPlace hr).apart_sub_of_disjoint (elementField_disjoint fun he => h ?_)
  exact UInt64.toNat_inj.mp (Fin.mk.inj he)

theorem header_apart (hi : i < T.size p.start m) :
    (elementPlace hr hi).Apart (header hr) := by
  have ha : (arrayPlace hr).Apart (header hr) := by
    refine Or.inr ?_
    unfold arrayPlace
    rw [p.toNat_sub_start]
    exact Nat.le_refl _
  exact ha.sub _

variable {a : UInt64 × UInt64} (ha : T.InRange p.start m a)
include hr ha

theorem assign_eq : T.assign p.start m a = writeAt (elementPlace hr ha.1).start
    (T.element.parts.write (T.valueAt (T.address p.start a.2) m)
      (readAt T.element.size (T.address p.start a.1) m)) m := by
  rw [elementPlace_start]
  rfl

/-- **What precedes the array does not change.** -/
theorem header_assign :
    readAt T.offset p.start (T.assign p.start m a) = readAt T.offset p.start m := by
  rw [assign_eq hr ha]
  exact readAt_writeAt_of_apart (q := header hr) _ _ m (header_apart hr ha.1).symm

theorem size_assign : T.size p.start (T.assign p.start m a) = T.size p.start m :=
  size_congr (header_assign hr ha)

theorem valueAt_assign_self :
    T.valueAt (T.address p.start a.1) (T.assign p.start m a) =
      T.valueAt (T.address p.start a.2) m := by
  rw [assign_eq hr ha, ← elementPlace_start hr ha.1]
  unfold valueAt
  rw [readAt_writeAt_self, PartsOf.read_write]

theorem valueAt_assign_of_ne (hi : i < T.size p.start m) (h : i ≠ a.1) :
    T.valueAt (T.address p.start i) (T.assign p.start m a) =
      T.valueAt (T.address p.start i) m := by
  rw [assign_eq hr ha, ← elementPlace_start hr hi]
  unfold valueAt
  rw [readAt_writeAt_of_apart _ _ m (elementPlace_apart hr hi ha.1 h)]

/-- **To the list of elements, assigning through the span is assigning.** -/
theorem contents_assign :
    T.contents p.start (T.assign p.start m a) = listAssign (T.contents p.start m) a := by
  have hsize := size_assign hr ha
  have hl := T.length_contents p.start m
  have hj : a.2.toNat < (T.contents p.start m).length := by
    rw [hl]
    exact UInt64.lt_iff_toNat_lt.mp ha.2
  have hv : listAssign (T.contents p.start m) a =
      (T.contents p.start m).set a.1.toNat (T.valueAt (T.address p.start a.2) m) := by
    unfold listAssign
    rw [List.getElem?_eq_getElem hj, getElem_contents, UInt64.ofNat_toNat]
  rw [hv]
  refine List.ext_getElem ?_ fun x hx hx' => ?_
  · rw [List.length_set, hl, length_contents, hsize]
  · have hxl : x < (T.size p.start m).toNat := by
      rw [length_contents, hsize] at hx
      exact hx
    have hxn : (UInt64.ofNat x).toNat = x :=
      UInt64.toNat_ofNat_of_lt' (hxl.trans (T.size p.start m).toNat_lt)
    rw [getElem_contents]
    by_cases he : a.1.toNat = x
    · subst he
      rw [List.getElem_set_self, UInt64.ofNat_toNat, valueAt_assign_self hr ha]
    · rw [List.getElem_set_ne he, getElem_contents]
      refine valueAt_assign_of_ne hr ha ?_ ?_
      · rw [UInt64.lt_iff_toNat_lt, hxn]
        exact hxl
      · intro h
        rw [h] at hxn
        exact he hxn

/-- **No byte outside the allocation is written.** -/
theorem assign_of_not_covers {b : Pointer} (hb : ¬ p.Covers b) :
    T.assign p.start m a b = m b := by
  rw [assign_eq hr ha]
  refine writeAt_of_not_covers _ _ m fun hc => hb ?_
  obtain ⟨h1, h2⟩ := hc
  have ht := p.toNat_sub_start ⟨T.offset, hr⟩
  have he := (arrayPlace hr).toNat_sub_start
    (elementField ⟨a.1.toNat, UInt64.lt_iff_toNat_lt.mp ha.1⟩)
  have hf := (elementField (w := T.element.size)
    ⟨a.1.toNat, UInt64.lt_iff_toNat_lt.mp ha.1⟩).fits
  unfold elementPlace at h1 h2
  rw [he] at h1 h2
  unfold arrayPlace at h1 h2
  rw [ht] at h1 h2
  unfold Room at hr
  unfold Place.Covers
  dsimp only at h1 h2
  omega

end Assign

/-! ### Any number of assignments -/

/-- **What assignments through the span do, in any number**: the span stays the same and the
allocation keeps its room, the elements are those of the list after the same assignments, and all
bytes before the array or outside the allocation are what they were. -/
theorem contents_run {T : ArrayAtEnd} {n : ℕ} {p : Place n} {m : Flat} (hr : Room T p m)
    (as : List (UInt64 × UInt64)) (has : ∀ a ∈ as, T.InRange p.start m a) :
    let after := run (T.assign p.start) m as
    T.contents p.start after = run listAssign (T.contents p.start m) as ∧
      T.size p.start after = T.size p.start m ∧
      readAt T.offset p.start after = readAt T.offset p.start m ∧
      ∀ b, ¬ p.Covers b → after b = m b := by
  have hstep (m' : Flat) (l : List T.element.Values) (a : UInt64 × UInt64)
      (hR : (T.contents p.start m' = l ∧ T.size p.start m' = T.size p.start m) ∧
        readAt T.offset p.start m' = readAt T.offset p.start m ∧ ∀ b, ¬ p.Covers b → m' b = m b)
      (ha : T.InRange p.start m a) :
      (T.contents p.start (T.assign p.start m' a) = listAssign l a ∧
        T.size p.start (T.assign p.start m' a) = T.size p.start m) ∧
      readAt T.offset p.start (T.assign p.start m' a) = readAt T.offset p.start m ∧
        ∀ b, ¬ p.Covers b → T.assign p.start m' a b = m b := by
    obtain ⟨⟨rfl, hs⟩, hh, hb⟩ := hR
    have hr' : Room T p m' := by
      unfold Room
      rw [hs]
      exact hr
    have ha' : T.InRange p.start m' a := by
      unfold InRange
      rw [hs]
      exact ha
    refine ⟨⟨contents_assign hr' ha', (size_assign hr' ha').trans hs⟩,
      (header_assign hr' ha').trans hh, fun b hn => ?_⟩
    exact (assign_of_not_covers hr' ha' hn).trans (hb b hn)
  obtain ⟨⟨hc, hs⟩, hh, hb⟩ := run_sim hstep as m (T.contents p.start m)
    ⟨⟨rfl, rfl⟩, rfl, fun _ _ => rfl⟩ (allowed_of_mem as m has)
  exact ⟨hc, hs, hh, hb⟩

end ArrayAtEnd

end MuchCoolEfi.Cxx.Trailing
