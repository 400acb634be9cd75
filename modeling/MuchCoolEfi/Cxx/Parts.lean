import Mathlib.Data.List.Basic
import Mathlib.Logic.Function.Basic
import MuchCoolEfi.Cxx.Layout
import MuchCoolEfi.Cxx.LittleEndian
import MuchCoolEfi.Cxx.Run

/-! # Objects as the values of their parts

Some bytes, and parts of them that hold values: each part a field with a type, no two of them
overlapping. `read` is what the parts hold, one value each, and `set` assigns to one of them. To the
values, assigning is updating a function (`read_set`), in any number of steps (`read_run`), and what
was written to all parts is read (`read_write`).

Bytes of no part are padding. Without any, some of the parts tell objects apart exactly if they are all
that have bytes (`determines_iff`). -/

namespace MuchCoolEfi.Cxx.Parts

open MuchCoolEfi.Cxx.Storage MuchCoolEfi.Cxx.Layout MuchCoolEfi.Cxx.LittleEndian
open MuchCoolEfi.Cxx.Run

/-! ### Types of members -/

/-- The type of a member. An enumeration counts as its underlying type; arrays, unions and objects
of other classes are held as their bytes. -/
inductive MemberType where
  | uint8 | uint16 | uint32 | uint64 | pointer | bool
  | object (t : TypeLayout)

namespace MemberType

def layout : MemberType → TypeLayout
  | uint8 | bool => Layout.uint8
  | uint16 => Layout.uint16
  | uint32 => Layout.uint32
  | uint64 | pointer => Layout.uint64
  | object t => t

def Value : MemberType → Type
  | uint8 => UInt8
  | uint16 => UInt16
  | uint32 => UInt32
  | uint64 | pointer => UInt64
  | bool => Bool
  | object t => Bytes t.size

def decode : (t : MemberType) → Bytes t.layout.size → t.Value
  | uint8, b => loadU8 b
  | uint16, b => loadU16 b
  | uint32, b => loadU32 b
  | uint64, b | pointer, b => loadU64 b
  | bool, b => loadU8 b != 0
  | object _, b => b

def encode : (t : MemberType) → t.Value → Bytes t.layout.size
  | uint8, v => #v[v]
  | uint16, v => LittleEndian.encode 2 v.toNat
  | uint32, v => LittleEndian.encode 4 v.toNat
  | uint64, v | pointer, v => LittleEndian.encode 8 v.toNat
  | bool, true => #v[1]
  | bool, false => #v[0]
  | object _, v => v

/-- The bytes are those of a value. Only `bool` has bytes that are not. -/
def Valid : (t : MemberType) → Bytes t.layout.size → Prop
  | bool, b => loadU8 b = 0 ∨ loadU8 b = 1
  | _, _ => True

@[simp] theorem decode_encode : ∀ (t : MemberType) (v : t.Value), t.decode (t.encode v) = v
  | uint8, _ => rfl
  | uint16, v => loadU16_encode v
  | uint32, v => loadU32_encode v
  | uint64, v | pointer, v => loadU64_encode v
  | bool, true | bool, false => rfl
  | object _, _ => rfl

@[simp] theorem valid_encode : ∀ (t : MemberType) (v : t.Value), t.Valid (t.encode v)
  | bool, true => Or.inr rfl
  | bool, false => Or.inl rfl
  | uint8, _ | uint16, _ | uint32, _ | uint64, _ | pointer, _ | object _, _ => trivial

/-- **A value has one encoding.** -/
theorem encode_decode : ∀ (t : MemberType) {b : Bytes t.layout.size}, t.Valid b →
    t.encode (t.decode b) = b
  | uint8, _, _ => loadU8_inj.mp rfl
  | uint16, _, _ => loadU16_inj.mp (loadU16_encode _)
  | uint32, _, _ => loadU32_inj.mp (loadU32_encode _)
  | uint64, _, _ | pointer, _, _ => loadU64_inj.mp (loadU64_encode _)
  | object _, _, _ => rfl
  | bool, b, h => by
    have hb : bool.decode b = (loadU8 b != 0) := rfl
    refine loadU8_inj.mp ?_
    rcases h with h | h <;> rw [hb, h] <;> rfl

theorem decode_inj {t : MemberType} {b b' : Bytes t.layout.size} (h : t.Valid b)
    (h' : t.Valid b') : t.decode b = t.decode b' ↔ b = b' := by
  constructor
  · intro he
    rw [← t.encode_decode h, he, t.encode_decode h']
  · rintro rfl
    rfl

/-- Changing a byte to zero, or one that is zero, changes the value. -/
theorem getElem_eq_of_decode : ∀ {t : MemberType} {b b' : Bytes t.layout.size} {j : ℕ}
    (hj : j < t.layout.size), b[j] = 0 ∨ b'[j] = 0 → t.decode b = t.decode b' → b[j] = b'[j]
  | uint8, b, b', _, _, _, h | uint16, b, b', _, _, _, h | uint32, b, b', _, _, _, h
  | uint64, b, b', _, _, _, h | pointer, b, b', _, _, _, h | object _, b, b', _, _, _, h => by
    have he : b = b' := (decode_inj (by exact trivial) (by exact trivial)).mp h
    rw [he]
  | bool, b, b', j, hj, h0, h => by
    obtain rfl : j = 0 := Nat.lt_one_iff.mp hj
    change (b[0] != 0) = (b'[0] != 0) at h
    rcases h0 with h0 | h0
    · rw [h0] at h ⊢
      exact (bne_eq_false_iff_eq.mp h.symm).symm
    · rw [h0] at h ⊢
      exact bne_eq_false_iff_eq.mp h
/-- A type whose objects have bytes has two values. -/
theorem exists_ne : ∀ t : MemberType, 0 < t.layout.size → ∃ v w : t.Value, v ≠ w
  | uint8, _ => ⟨_, _, (by decide : (0 : UInt8) ≠ 1)⟩
  | uint16, _ => ⟨_, _, (by decide : (0 : UInt16) ≠ 1)⟩
  | uint32, _ => ⟨_, _, (by decide : (0 : UInt32) ≠ 1)⟩
  | uint64, _ | pointer, _ => ⟨_, _, (by decide : (0 : UInt64) ≠ 1)⟩
  | bool, _ => ⟨true, false, Bool.noConfusion⟩
  | object t, h => by
    refine ⟨(Vector.replicate t.size 0 : Bytes t.size), (Vector.replicate t.size 1 : Bytes t.size),
      fun he => ?_⟩
    have h0 := congrArg (fun v : Bytes t.size => v.get ⟨0, h⟩) he
    simp [Vector.get] at h0

end MemberType

/-! ### Parts -/

/-- Typed parts of `n` bytes, no two of which overlap, and a list of all of them. -/
structure PartsOf (n : ℕ) (ι : Type) where
  type : ι → MemberType
  field : (i : ι) → Field n (type i).layout.size
  disjoint : ∀ {i j}, i ≠ j → (field i).Disjoint (field j)
  all : List ι
  mem_all : ∀ i, i ∈ all

namespace PartsOf

variable {n : ℕ} {ι : Type} (P : PartsOf n ι)

/-- A value for every part. -/
abbrev Values := (i : ι) → (P.type i).Value

/-- What the parts hold. -/
def read (s : Bytes n) : P.Values := fun i => (P.type i).decode (load (P.field i) s)

/-- Assign to a part. -/
def set (i : ι) (v : (P.type i).Value) (s : Bytes n) : Bytes n :=
  store (P.field i) ((P.type i).encode v) s

/-- Every part holds a value of its type. -/
def Valid (s : Bytes n) : Prop := ∀ i, (P.type i).Valid (load (P.field i) s)

/-- A part and the value it is assigned. -/
abbrev Assignment := (i : ι) × (P.type i).Value

def step (s : Bytes n) (a : P.Assignment) : Bytes n := P.set a.1 a.2 s

/-- Assign to all parts, in their order. -/
def assignments (v : P.Values) : List P.Assignment := P.all.map fun i => ⟨i, v i⟩

/-- The bytes with the given values, in storage that held `held`. -/
def write (v : P.Values) (held : Bytes n) : Bytes n := run P.step held (P.assignments v)

/-- A byte of no part. -/
def Padding (b : Fin n) : Prop := ∀ i, ¬ (P.field i).Mem b

variable {P}

theorem load_set_of_ne {i j : ι} (h : j ≠ i) (v : (P.type i).Value) (s : Bytes n) :
    load (P.field j) (P.set i v s) = load (P.field j) s :=
  load_store_of_disjoint (P.disjoint h) _ s

theorem valid_set (i : ι) (v : (P.type i).Value) {s : Bytes n} (h : P.Valid s) :
    P.Valid (P.set i v s) := by
  intro j
  by_cases hj : j = i
  · subst hj
    unfold set
    rw [load_store]
    exact MemberType.valid_encode _ v
  · rw [load_set_of_ne hj]
    exact h j

/-! ### Assigning is updating -/

section Update

variable [DecidableEq ι]

/-- An assignment, to the values. -/
def update (v : P.Values) (a : P.Assignment) : P.Values := Function.update v a.1 a.2

/-- **To the values, assigning is updating.** -/
theorem read_set (i : ι) (v : (P.type i).Value) (s : Bytes n) :
    P.read (P.set i v s) = Function.update (P.read s) i v := by
  funext j
  by_cases h : j = i
  · subst h
    rw [Function.update_self]
    unfold read set
    rw [load_store, MemberType.decode_encode]
  · rw [Function.update_of_ne h]
    unfold read
    rw [load_set_of_ne h]

/-- **Any number of assignments** does to the values what as many updates do. -/
theorem read_run : ∀ (as : List P.Assignment) (s : Bytes n),
    P.read (run P.step s as) = run update (P.read s) as
  | [], _ => rfl
  | a :: as, s => by
    rw [run, run, read_run as, step, read_set]
    rfl

end Update

/-! ### Writing all parts -/

theorem load_run_assign (v : P.Values) {i : ι} : ∀ (l : List ι) (s : Bytes n),
    i ∈ l ∨ load (P.field i) s = (P.type i).encode (v i) →
      load (P.field i) (run P.step s (l.map fun j => ⟨j, v j⟩)) = (P.type i).encode (v i)
  | [], _, h => h.resolve_left List.not_mem_nil
  | j :: l, s, h => by
    refine load_run_assign v l _ ?_
    by_cases hij : i = j
    · subst hij
      exact Or.inr (load_store _ _ s)
    · rcases h with h | h
      · exact Or.inl ((List.mem_cons.mp h).resolve_left hij)
      · refine Or.inr ?_
        show load (P.field i) (P.set j (v j) s) = _
        rw [load_set_of_ne hij, h]

theorem load_write (v : P.Values) (held : Bytes n) (i : ι) :
    load (P.field i) (P.write v held) = (P.type i).encode (v i) :=
  load_run_assign v _ held (Or.inl (P.mem_all i))

/-- **What was written is read.** -/
@[simp] theorem read_write (v : P.Values) (held : Bytes n) : P.read (P.write v held) = v := by
  funext i
  unfold read
  rw [load_write, MemberType.decode_encode]

theorem valid_write (v : P.Values) (held : Bytes n) : P.Valid (P.write v held) := by
  intro i
  rw [load_write]
  exact MemberType.valid_encode _ _

/-- **Some bytes are their parts and their padding.** -/
theorem ext_parts {s t : Bytes n} (hm : ∀ i, load (P.field i) s = load (P.field i) t)
    (hp : ∀ b, P.Padding b → load (Field.byte b) s = load (Field.byte b) t) : s = t := by
  refine ext_of_load fun b hb => ?_
  by_cases h : ∃ i, (P.field i).Mem b
  · obtain ⟨i, hi⟩ := h
    exact ⟨_, P.field i, hi, hm i⟩
  · refine ⟨1, Field.byte ⟨b, hb⟩, ⟨Nat.le_refl b, Nat.lt_succ_self b⟩, hp ⟨b, hb⟩ ?_⟩
    exact fun i hi => h ⟨i, hi⟩

/-! ### Parts that tell objects apart -/

/-- Valid objects with the same values of the parts in `S` are equal. -/
def Determines (P : PartsOf n ι) (S : Set ι) : Prop :=
  ∀ s t, P.Valid s → P.Valid t → (∀ i ∈ S, P.read s i = P.read t i) → s = t

/-- **Without padding, some parts determine the object** exactly if they are all that have bytes. -/
theorem determines_iff [DecidableEq ι] (hp : ∀ b, ¬ P.Padding b) {S : Set ι} :
    P.Determines S ↔ ∀ i, 0 < (P.type i).layout.size → i ∈ S := by
  constructor
  · intro h i hi
    by_contra hS
    obtain ⟨v, w, hvw⟩ := (P.type i).exists_ne hi
    -- two objects that differ in the part `i` only
    let s : Bytes n := P.write (fun j => (P.type j).decode (.replicate _ 0)) (.replicate n 0)
    have hs : P.Valid s := valid_write _ _
    have he := h (P.set i v s) (P.set i w s) (valid_set i v hs) (valid_set i w hs) fun j hj => by
      have hji : j ≠ i := fun hji => hS (hji ▸ hj)
      rw [read_set, read_set, Function.update_of_ne hji, Function.update_of_ne hji]
    have hr := congrArg (fun b => P.read b i) he
    simp only [read_set, Function.update_self] at hr
    exact hvw hr
  · intro h s t hs ht hr
    refine ext_parts (P := P) (fun i => ?_) fun b hb => absurd hb (hp b)
    rcases Nat.eq_zero_or_pos (P.type i).layout.size with h0 | hi
    · exact Vector.ext fun j hj => absurd hj (by omega)
    · exact (MemberType.decode_inj (hs i) (ht i)).mp (hr i (h i hi))

end PartsOf

end MuchCoolEfi.Cxx.Parts
