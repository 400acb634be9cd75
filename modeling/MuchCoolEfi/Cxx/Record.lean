import Mathlib.Algebra.BigOperators.Fin
import Mathlib.Data.List.FinRange
import Mathlib.Order.Interval.Finset.Nat
import MuchCoolEfi.Cxx.Parts

/-! # Classes and their bases

A `ClassType` is a packing and the types of its members; the members are parts of the bytes its
layout asks for. Whether there is padding can be read off the sizes: there is none exactly if those of
the members add up (`noPadding_iff_gapless`).

A base class is the first member of a class derived from it (`derive`), so the address of an object
is that of its base class subobject (`baseField_offset`). -/

namespace MuchCoolEfi.Cxx.Record

open MuchCoolEfi.Cxx.Storage MuchCoolEfi.Cxx.Layout MuchCoolEfi.Cxx.Parts

/-! ### Classes and their objects -/

structure ClassType where
  pack : Packing
  types : List MemberType

namespace ClassType

variable (c : ClassType)

def layouts : List TypeLayout := c.types.map MemberType.layout

def layout : TypeLayout := record c.pack c.layouts

abbrev size : ℕ := c.layout.size

/-- The bytes of an object. -/
abbrev Object := Bytes c.size

abbrev Member := Fin c.types.length

variable {c}

/-- The type of a member. -/
abbrev typeOf (i : c.Member) : MemberType := c.types.get i

theorem Member.lt_layouts (i : c.Member) : i.val < c.layouts.length := by
  unfold layouts
  rw [List.length_map]
  exact i.isLt

theorem Member.lt_offsets (i : c.Member) : i.val < (offsets c.pack c.layouts).length := by
  rw [length_offsets]
  exact i.lt_layouts

theorem layouts_getElem (i : c.Member) (h : i.val < c.layouts.length) :
    c.layouts[i.val] = (typeOf i).layout := List.getElem_map _

/-- Where a member lies. -/
def field (i : c.Member) : Field c.size (typeOf i).layout.size :=
  have h : i.val < (offsets c.pack c.layouts).length := i.lt_offsets
  ⟨(offsets c.pack c.layouts)[i.val], by
    have hi := i.lt_layouts
    rw [← layouts_getElem i hi]
    exact offset_add_size_le c.pack c.layouts h hi⟩

/-- A member ends before a later one begins. -/
theorem field_le_of_lt {i j : c.Member} (h : i < j) :
    (field i).offset + (typeOf i).layout.size ≤ (field j).offset := by
  have hi := i.lt_layouts
  have hs := congrArg TypeLayout.size (layouts_getElem i hi)
  have hp : (field i).offset + c.layouts[i.val].size ≤ (field j).offset :=
    place_add_size_le_place c.pack c.layouts 0 i j i.lt_offsets hi j.lt_offsets h
  omega

theorem field_disjoint {i j : c.Member} (h : i ≠ j) : (field i).Disjoint (field j) := by
  rcases lt_or_gt_of_ne h with h | h
  · exact Or.inl (field_le_of_lt h)
  · exact Or.inr (field_le_of_lt h)

/-- The members, as parts of the object. -/
def parts (c : ClassType) : PartsOf c.size c.Member where
  type := typeOf
  field := field
  disjoint := field_disjoint
  all := List.finRange c.types.length
  mem_all := List.mem_finRange

/-- A value for every member. -/
abbrev Values (c : ClassType) := c.parts.Values

/-! ### Padding -/

/-- The sizes of the members add up to the size of the class. -/
def Gapless (c : ClassType) : Prop := (c.layouts.map TypeLayout.size).sum = c.size

instance : Decidable c.Gapless := inferInstanceAs (Decidable (_ = _))

/-- The bytes of the members. -/
def occupied (c : ClassType) : Finset ℕ :=
  Finset.univ.biUnion fun i : c.Member =>
    Finset.Ico (field i).offset ((field i).offset + (typeOf i).layout.size)

theorem mem_occupied {b : ℕ} : b ∈ c.occupied ↔ ∃ i : c.Member, (field i).Mem b := by
  simp [occupied, Field.Mem]

theorem occupied_subset : c.occupied ⊆ Finset.range c.size := by
  intro b hb
  obtain ⟨i, h1, h2⟩ := mem_occupied.mp hb
  have hf := (field i).fits
  rw [Finset.mem_range]
  omega

theorem card_occupied : c.occupied.card = (c.layouts.map TypeLayout.size).sum := by
  have hd : ∀ i j : c.Member, i ≠ j →
      Disjoint (Finset.Ico (field i).offset ((field i).offset + (typeOf i).layout.size))
        (Finset.Ico (field j).offset ((field j).offset + (typeOf j).layout.size)) := by
    intro i j hij
    rw [Finset.disjoint_left]
    intro b hi hj
    rw [Finset.mem_Ico] at hi hj
    rcases field_disjoint hij with h | h <;> omega
  rw [occupied, Finset.card_biUnion fun i _ j _ hij => hd i j hij]
  simp only [Nat.card_Ico, Nat.add_sub_cancel_left]
  rw [layouts, List.map_map]
  exact Fin.sum_univ_fun_getElem c.types fun t => t.layout.size

/-- **There is no padding exactly if the sizes of the members add up.** -/
theorem noPadding_iff_gapless : (∀ b, ¬ c.parts.Padding b) ↔ c.Gapless := by
  have hc := card_occupied (c := c)
  constructor
  · intro h
    have heq : c.occupied = Finset.range c.size := by
      refine Finset.Subset.antisymm occupied_subset fun b hb => ?_
      by_contra hn
      exact h ⟨b, Finset.mem_range.mp hb⟩ fun i hi => hn (mem_occupied.mpr ⟨i, hi⟩)
    rw [heq, Finset.card_range] at hc
    exact hc.symm
  · rintro hg b hn
    have heq : c.occupied = Finset.range c.size := by
      refine Finset.eq_of_subset_of_card_le occupied_subset ?_
      rw [Finset.card_range, hc, hg]
    obtain ⟨i, hi⟩ := mem_occupied.mp (heq ▸ Finset.mem_range.mpr b.isLt)
    exact hn i hi

theorem gapless_of_pack1 (h : c.pack = pack1) : c.Gapless := by
  unfold Gapless size layout
  rw [h, packed_size]

/-! ### Base classes -/

/-- A class with the base class `base` and members of its own. -/
def derive (base : ClassType) (own : List MemberType) : ClassType :=
  ⟨base.pack, .object base.layout :: own⟩

variable {own : List MemberType}

/-- The base class subobject. -/
def baseMember : (c.derive own).Member := ⟨0, Nat.succ_pos _⟩

/-- A member that is not inherited. -/
def ownMember (i : Fin own.length) : (c.derive own).Member := i.succ

/-- Where the base class subobject lies. -/
def baseField : Field (c.derive own).size c.size := field baseMember

/-- **The base class comes first**, so converting a pointer to it changes no address. -/
theorem baseField_offset : (baseField : Field (c.derive own).size c.size).offset = 0 := by
  show roundUp 0 _ = 0
  unfold roundUp
  rw [Nat.zero_add, Nat.div_eq_of_lt (Nat.sub_lt (memberAlign_pos _ _) Nat.one_pos), Nat.zero_mul]

theorem baseField_disjoint (i : Fin own.length) :
    (baseField : Field (c.derive own).size c.size).Disjoint (field (ownMember i)) :=
  field_disjoint (Fin.succ_ne_zero i).symm

end ClassType

end MuchCoolEfi.Cxx.Record
