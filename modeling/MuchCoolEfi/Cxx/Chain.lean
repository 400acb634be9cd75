import MuchCoolEfi.Cxx.Record

/-! # Chains of base classes

A class derived from a class derived from a root, each adding members: `derived root ls` for the lists
`ls` of members added, the most derived class first. A `Position` is a member together with the class
that declares it. The positions are parts of an object (`parts`), so what is known of parts holds of
all members at once, inherited or not.

* `load_inherited`, `field_inherited_offset`: an inherited member is read in the base class subobject,
  at the same address.
* `load_rootField_eq_iff`: the subobject of the root, at the same address too, is the members that the
  root declares.
* `noPadding_of_pack1`: under `pack(1)` there is no padding, however long the chain. -/

namespace MuchCoolEfi.Cxx.Chain

open MuchCoolEfi.Cxx.Storage MuchCoolEfi.Cxx.Layout MuchCoolEfi.Cxx.Parts MuchCoolEfi.Cxx.Record
open MuchCoolEfi.Cxx.Record.ClassType (typeOf baseField ownMember)

/-- The members each class adds to its base class, the most derived class first. -/
abbrev Levels := List (List MemberType)

/-- The class at the end of the chain. -/
def derived (root : ClassType) : Levels → ClassType
  | [] => root
  | added :: ls => (derived root ls).derive added

/-- A member, declared by the root or by one of the classes derived from it. -/
inductive Position (root : ClassType) : Levels → Type where
  | declared (i : root.Member) : Position root []
  | inherited {added : List MemberType} {ls : Levels} (pos : Position root ls) :
    Position root (added :: ls)
  | own {added : List MemberType} {ls : Levels} (i : Fin added.length) : Position root (added :: ls)
deriving DecidableEq

variable {root : ClassType}

namespace Position

def type : {ls : Levels} → Position root ls → MemberType
  | _, declared i => typeOf i
  | _, inherited pos => pos.type
  | added :: _, .own i => added.get i

/-- Where the member lies in an object of the most derived class. -/
def field : {ls : Levels} → (pos : Position root ls) →
    Field (derived root ls).size pos.type.layout.size
  | _, declared i => ClassType.field i
  | _, inherited pos => baseField.comp pos.field
  | _ :: _, .own i => ClassType.field (ownMember i)

theorem field_disjoint : {ls : Levels} → {pos pos' : Position root ls} → pos ≠ pos' →
    pos.field.Disjoint pos'.field
  | _, declared _, declared _, h => ClassType.field_disjoint fun he => h (congrArg declared he)
  | _, inherited _, inherited _, h =>
    baseField.comp_disjoint_comp (field_disjoint fun he => h (congrArg inherited he))
  | _ :: _, inherited pos, .own j, _ => (ClassType.baseField_disjoint j).comp pos.field
  | _ :: _, .own i, inherited pos', _ => ((ClassType.baseField_disjoint i).comp pos'.field).symm
  | _ :: _, .own _, .own _, h => ClassType.field_disjoint fun he =>
    h (congrArg Position.own (Fin.succ_injective _ he))

/-- All members, those of the root first. -/
def all (root : ClassType) : (ls : Levels) → List (Position root ls)
  | [] => (List.finRange root.types.length).map declared
  | added :: ls => (all root ls).map inherited ++ (List.finRange added.length).map Position.own

theorem mem_all : {ls : Levels} → (pos : Position root ls) → pos ∈ all root ls
  | _, declared i => List.mem_map_of_mem (List.mem_finRange i)
  | _, inherited pos => List.mem_append_left _ (List.mem_map_of_mem (mem_all pos))
  | _ :: _, .own i => List.mem_append_right _ (List.mem_map_of_mem (List.mem_finRange i))

/-- **An inherited member keeps its address** when a pointer to the object is converted. -/
theorem field_inherited_offset {added : List MemberType} {ls : Levels}
    (pos : Position root ls) :
    (inherited pos : Position root (added :: ls)).field.offset = pos.field.offset := by
  show baseField.offset + pos.field.offset = _
  rw [ClassType.baseField_offset, Nat.zero_add]

end Position

/-- All members of all classes of the chain, as parts of the object. -/
def parts (root : ClassType) (ls : Levels) : PartsOf (derived root ls).size (Position root ls) where
  type := Position.type
  field := Position.field
  disjoint := Position.field_disjoint
  all := Position.all root ls
  mem_all := Position.mem_all

theorem load_inherited {added : List MemberType} {ls : Levels} (pos : Position root ls)
    (s : Bytes (derived root (added :: ls)).size) :
    load (Position.inherited pos : Position root (added :: ls)).field s =
      load pos.field (load baseField s) :=
  load_comp baseField pos.field s

/-! ### The subobject of the root -/

/-- Where the subobject of the root lies. -/
def rootField : (ls : Levels) → Field (derived root ls).size root.size
  | [] => Field.whole
  | _ :: ls => baseField.comp (rootField ls)

/-- **All base classes begin where the object begins.** -/
theorem rootField_offset : ∀ ls : Levels, (@rootField root ls).offset = 0
  | [] => rfl
  | _ :: ls => by
    show baseField.offset + (@rootField root ls).offset = 0
    rw [ClassType.baseField_offset, rootField_offset ls]

/-- The member is one of the root. -/
def Position.IsDeclared : {ls : Levels} → Position root ls → Prop
  | _, declared _ => True
  | _, inherited pos => pos.IsDeclared
  | _ :: _, .own _ => False

instance Position.decidableIsDeclared : {ls : Levels} → (pos : Position root ls) →
    Decidable pos.IsDeclared
  | _, declared _ => isTrue trivial
  | _, inherited pos => pos.decidableIsDeclared
  | _ :: _, .own _ => isFalse id

/-- **The subobject of the root is the members it declares**, if it has no padding. -/
theorem load_rootField_eq_iff (hp : ∀ b, ¬ root.parts.Padding b) : ∀ {ls : Levels}
    {s t : Bytes (derived root ls).size}, load (rootField ls) s = load (rootField ls) t ↔
      ∀ pos : Position root ls, pos.IsDeclared → load pos.field s = load pos.field t
  | [], s, t => by
    constructor
    · intro h pos _
      have hst : s = t := (load_whole s).symm.trans (h.trans (load_whole t))
      rw [hst]
    · intro h
      exact congrArg _ (PartsOf.ext_parts (P := root.parts) (fun i => h (.declared i) trivial)
        fun b hb => absurd hb (hp b))
  | added :: ls, s, t => by
    have hroot (s : Bytes (derived root (added :: ls)).size) :
        load (rootField (added :: ls)) s = load (rootField ls) (load baseField s) :=
      load_comp baseField (rootField ls) s
    rw [hroot, hroot, load_rootField_eq_iff hp]
    constructor
    · rintro h (_ | pos | i) hd
      · rw [load_inherited, load_inherited]
        exact h pos hd
      · exact hd.elim
    · intro h pos hd
      rw [← load_inherited, ← load_inherited]
      exact h (.inherited pos) hd

/-! ### Packed classes -/

theorem derived_pack (root : ClassType) : ∀ ls : Levels, (derived root ls).pack = root.pack
  | [] => rfl
  | _ :: ls => derived_pack root ls

/-- **Packed classes have no padding**, nor have the classes derived from them. -/
theorem noPadding_of_pack1 (h : root.pack = pack1) : ∀ (ls : Levels)
    (b : Fin (derived root ls).size), ¬ (parts root ls).Padding b
  | [], b, hb => by
    have hg : root.Gapless := ClassType.gapless_of_pack1 h
    exact ClassType.noPadding_iff_gapless.mpr hg b fun i => hb (.declared i)
  | added :: ls, b, hb => by
    have hp := (derived_pack root (added :: ls)).trans h
    have hn := ClassType.noPadding_iff_gapless.mpr (ClassType.gapless_of_pack1 hp) b
    refine hn fun i hi => ?_
    rcases Fin.eq_zero_or_eq_succ i with rfl | ⟨j, rfl⟩
    · -- the byte is one of the base class, where all bytes are of some member
      have h0 : (baseField : Field (derived root (added :: ls)).size
          (derived root ls).size).offset = 0 := ClassType.baseField_offset
      obtain ⟨h1, h2⟩ := hi
      change (baseField : Field (derived root (added :: ls)).size
        (derived root ls).size).offset ≤ b.val at h1
      change b.val < (baseField : Field (derived root (added :: ls)).size
        (derived root ls).size).offset + (derived root ls).size at h2
      have hlt : b.val < (derived root ls).size := by omega
      refine noPadding_of_pack1 h ls ⟨b, hlt⟩ fun pos hm => hb (.inherited pos) ?_
      have ho : (Position.inherited pos : Position root (added :: ls)).field.offset =
          pos.field.offset := pos.field_inherited_offset
      obtain ⟨hm1, hm2⟩ := hm
      exact ⟨ho ▸ hm1, ho ▸ hm2⟩
    · exact hb (.own j) hi

end MuchCoolEfi.Cxx.Chain
