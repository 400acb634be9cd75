import MuchCoolEfi.Core.Guids
import MuchCoolEfi.Core.StatusCode
import MuchCoolEfi.Cxx.Contiguous
import MuchCoolEfi.Cxx.Effect
import Mathlib.Logic.Function.Basic

/-! # Looking up configuration tables

The system table points to an array of configuration tables, each a GUID and a pointer. Its two
lookups, by index and by GUID, write the address of an entry through the caller's pointer and
return a status. The memory keeps the `ConfigurationTable` objects and the `ConfigurationTable*`
objects apart, as the language does: a store to one changes none of the other.

Each lookup is one equation for its callers, `getConfigurationTable_eq` and
`findConfigurationTable_eq`, with what it stores as a function of its own: `delivered` for an index,
`found` for a GUID, the loop being a `List.find?` over the entries. -/

namespace MuchCoolEfi.Configuration.Lookup

open MuchCoolEfi.Cxx.Layout MuchCoolEfi.Cxx.Contiguous MuchCoolEfi.Cxx.Effect
open MuchCoolEfi.Core.Guids MuchCoolEfi.Core.StatusCode

/-! ### Objects and memory -/

structure ConfigurationTable where
  guid : Guid
  table : Pointer

/-- `class ConfigurationTable`: a GUID and a pointer. -/
def configurationTableLayout : TypeLayout := record none [guidLayout, uint64]

theorem configurationTableLayout_size : configurationTableLayout.size = 24 := rfl

/-- `sizeof(ConfigurationTable)`. -/
abbrev entrySize : ℕ := configurationTableLayout.size

instance : NeZero entrySize := ⟨by decide⟩

structure Memory where
  tableAt : Pointer → ConfigurationTable
  slotAt : Pointer → Pointer

/-- The memory after `*entry = p`. -/
def Memory.setSlot (m : Memory) (entry p : Pointer) : Memory :=
  { m with slotAt := Function.update m.slotAt entry p }

@[simp] theorem setSlot_tableAt (m : Memory) (entry p : Pointer) :
    (m.setSlot entry p).tableAt = m.tableAt := rfl

@[simp] theorem setSlot_slotAt_self (m : Memory) (entry p : Pointer) :
    (m.setSlot entry p).slotAt entry = p := Function.update_self _ _ _

theorem setSlot_slotAt_of_ne (m : Memory) {entry other : Pointer} (p : Pointer)
    (h : other ≠ entry) : (m.setSlot entry p).slotAt other = m.slotAt other :=
  Function.update_of_ne h _ _

/-- Memory full of zeros. -/
def Memory.zero : Memory where
  tableAt _ := ⟨⟨Vector.replicate 16 0⟩, nullptr⟩
  slotAt _ := nullptr

/-- The preconditions a lookup can break. -/
inductive Violation where
  | nullStore
  | subscript (index size : UInt64)
deriving DecidableEq

abbrev Body := Exec Memory Violation

/-- `*entry = p`. -/
def assign (entry p : Pointer) : Body Unit := do
  require (entry ≠ nullptr) .nullStore
  update fun m => m.setSlot entry p

/-- `&span[index]`; `std::span` requires `index < size()` and computes the address in any case. -/
def subscript {w : ℕ} (span : Span w) (index : UInt64) : Body Pointer := do
  require (index < span.size) (.subscript index span.size)
  return span.address index

/-! ### The system table -/

/-- The two members the lookups read. That the pointer is that of an array with so many entries is
part of the structure. -/
structure SystemTable where
  numTableEntries : UInt64
  configurationTable : Pointer
  in_space : configurationTable.toNat + entrySize * numTableEntries.toNat < 2 ^ 64
  table_ne_null : 0 < numTableEntries → configurationTable ≠ nullptr

namespace SystemTable

variable (t : SystemTable)

def configurationTables : Span entrySize where
  data := t.configurationTable
  size := t.numTableEntries
  in_space := t.in_space
  data_ne_null := t.table_ne_null

def getConfigurationTable (index : UInt64) (entry : Pointer) : Body Status :=
  if entry = nullptr then return Enumerator.invalidParameter.status
  else if index > t.numTableEntries then do
    assign entry nullptr
    return Enumerator.invalidParameter.status
  else do
    assign entry (← subscript t.configurationTables index)
    return Enumerator.success.status

/-- The loop of `findConfigurationTable` over the elements still to visit, and what follows it. -/
def findLoop (guid : Guid) (entry : Pointer) : List Pointer → Body Status
  | [] => do
    assign entry nullptr
    return Enumerator.notFound.status
  | table :: tables => do
    if (← inspect fun m => m.tableAt table).guid.operatorEq guid then
      assign entry table
      return Enumerator.success.status
    else findLoop guid entry tables

def findConfigurationTable (guid : Guid) (entry : Pointer) : Body Status :=
  findLoop guid entry t.configurationTables.elements

/-- A table without entries; firmware may leave its pointer anywhere. -/
def empty (configurationTable : Pointer) : SystemTable where
  numTableEntries := 0
  configurationTable := configurationTable
  in_space := configurationTable.toNat_lt
  table_ne_null h := absurd h (UInt64.lt_irrefl 0)

end SystemTable

/-! ### What the lookups do -/

theorem assign_apply (entry p : Pointer) (m : Memory) :
    assign entry p m =
      ⟨(), m.setSlot entry p, if entry ≠ nullptr then [] else [.nullStore]⟩ := by
  simp [assign]

theorem subscript_apply {w : ℕ} (span : Span w) (index : UInt64) (m : Memory) :
    subscript span index m =
      ⟨span.address index, m, if index < span.size then [] else [.subscript index span.size]⟩ := by
  simp [subscript]

section Get

variable (t : SystemTable) (index : UInt64) {entry : Pointer} (m : Memory)

theorem getConfigurationTable_null :
    t.getConfigurationTable index nullptr m =
      ⟨Enumerator.invalidParameter.status, m, []⟩ := by
  simp [SystemTable.getConfigurationTable]

variable {index}

/-- An index above the number of entries is rejected. -/
theorem getConfigurationTable_gt (he : entry ≠ nullptr) (hi : t.numTableEntries < index) :
    t.getConfigurationTable index entry m =
      ⟨Enumerator.invalidParameter.status, m.setSlot entry nullptr, []⟩ := by
  simp [SystemTable.getConfigurationTable, he, hi, assign_apply]

/-- **Every other index is accepted**, also the number of entries. -/
theorem getConfigurationTable_le (he : entry ≠ nullptr) (hi : index ≤ t.numTableEntries) :
    t.getConfigurationTable index entry m =
      ⟨Enumerator.success.status, m.setSlot entry (t.configurationTables.address index),
        if index < t.numTableEntries then [] else [.subscript index t.numTableEntries]⟩ := by
  have hn : ¬ t.numTableEntries < index := UInt64.not_lt.mpr hi
  simp [SystemTable.getConfigurationTable, he, hn, assign_apply, subscript_apply,
    SystemTable.configurationTables]

/-- What is stored for the index `i`. -/
def delivered (t : SystemTable) (i : UInt64) : Pointer :=
  if i ≤ t.numTableEntries then t.configurationTables.address i else nullptr

variable (index)

/-- **The lookup by index in one equation.** The status is always the word of `Success`, as the
enumerator of a rejected call is that word too. -/
theorem getConfigurationTable_eq (he : entry ≠ nullptr) :
    t.getConfigurationTable index entry m =
      ⟨Enumerator.success.status, m.setSlot entry (delivered t index),
        if index = t.numTableEntries then [.subscript index index] else []⟩ := by
  unfold delivered
  by_cases hi : index ≤ t.numTableEntries
  · rw [getConfigurationTable_le t m he hi, if_pos hi]
    by_cases hn : index = t.numTableEntries
    · rw [if_pos hn, ← hn, if_neg (UInt64.lt_irrefl index)]
    · rw [if_neg hn, if_pos (UInt64.lt_of_le_of_ne hi hn)]
  · have hn : index ≠ t.numTableEntries := fun h => hi (h ▸ UInt64.le_refl index)
    rw [getConfigurationTable_gt t m he (UInt64.not_le.mp hi), if_neg hi, if_neg hn,
      status_of_error (e := .invalidParameter) rfl]

end Get

section Find

variable (t : SystemTable) (guid : Guid) (entry : Pointer) (m : Memory)

/-- The entry at `p` carries the GUID. -/
def hasGuid (p : Pointer) : Bool := (m.tableAt p).guid.operatorEq guid

/-- The loop, with what it delivers given as the result of `List.find?`. -/
theorem findLoop_eq : ∀ ps : List Pointer,
    SystemTable.findLoop guid entry ps m =
      match ps.find? (hasGuid guid m) with
      | some p => ⟨Enumerator.success.status, m.setSlot entry p,
          if entry ≠ nullptr then [] else [.nullStore]⟩
      | none => ⟨Enumerator.notFound.status, m.setSlot entry nullptr,
          if entry ≠ nullptr then [] else [.nullStore]⟩
  | [] => by simp [SystemTable.findLoop, assign_apply]
  | p :: ps => by
    have ih := findLoop_eq ps
    by_cases hp : hasGuid guid m p = true
    · have hp' : (m.tableAt p).guid.operatorEq guid = true := hp
      simp [SystemTable.findLoop, hp, hp', assign_apply]
    · have hp' : (m.tableAt p).guid.operatorEq guid = false := by simpa [hasGuid] using hp
      simp [SystemTable.findLoop, hp, hp', ih]

/-- What is stored for the GUID. -/
def found (t : SystemTable) (guid : Guid) (m : Memory) : Pointer :=
  (t.configurationTables.elements.find? (hasGuid guid m)).getD nullptr

/-- **The lookup by GUID in one equation.** The status is always the word of `Success`, as
`NotFound` is that word too, and the store takes place whatever `entry` is. -/
theorem findConfigurationTable_eq :
    t.findConfigurationTable guid entry m =
      ⟨Enumerator.success.status, m.setSlot entry (found t guid m),
        if entry ≠ nullptr then [] else [.nullStore]⟩ := by
  unfold SystemTable.findConfigurationTable found
  rw [findLoop_eq]
  cases t.configurationTables.elements.find? (hasGuid guid m) with
  | some p => rfl
  | none => rw [status_of_error (e := .notFound) rfl]; rfl

theorem found_eq_null :
    found t guid m = nullptr ↔
      ∀ i < t.numTableEntries, hasGuid guid m (t.configurationTables.address i) = false := by
  unfold found
  cases h : t.configurationTables.elements.find? (hasGuid guid m) with
  | none => exact ⟨fun _ => t.configurationTables.find?_elements_eq_none.mp h, fun _ => rfl⟩
  | some p =>
    obtain ⟨i, hi, rfl, hP, -⟩ := t.configurationTables.find?_elements_eq_some.mp h
    refine ⟨fun h0 => absurd h0 (t.configurationTables.address_ne_null hi), fun hall => ?_⟩
    rw [hall i hi] at hP
    cases hP

/-- What is delivered for a GUID carries it. -/
theorem hasGuid_found (h : found t guid m ≠ nullptr) : hasGuid guid m (found t guid m) = true := by
  unfold found at h ⊢
  cases hf : t.configurationTables.elements.find? (hasGuid guid m) with
  | none =>
    rw [hf] at h
    exact absurd rfl h
  | some p => exact List.find?_some hf

/-- **The first entry with the GUID is delivered.** -/
theorem found_eq_address {i : UInt64} (hi : i < t.numTableEntries)
    (hP : hasGuid guid m (t.configurationTables.address i) = true)
    (hj : ∀ j < i, hasGuid guid m (t.configurationTables.address j) = false) :
    found t guid m = t.configurationTables.address i := by
  have h : t.configurationTables.elements.find? (hasGuid guid m) =
      some (t.configurationTables.address i) :=
    t.configurationTables.find?_elements_eq_some.mpr ⟨i, hi, rfl, hP, hj⟩
  rw [found, h]; rfl

end Find

section Delivered

variable (t : SystemTable) {i : UInt64}

theorem delivered_of_lt (hi : i < t.numTableEntries) :
    delivered t i = t.configurationTables.address i :=
  if_pos (UInt64.le_of_lt hi)

theorem delivered_of_gt (hi : t.numTableEntries < i) : delivered t i = nullptr :=
  if_neg (UInt64.not_le.mpr hi)

/-- **At the number of entries, the address past the last one is delivered.** -/
theorem delivered_size : delivered t t.numTableEntries = t.configurationTables.pastTheEnd :=
  if_pos (UInt64.le_refl _)

theorem delivered_ne_null_iff :
    delivered t i ≠ nullptr ↔ i ≤ t.numTableEntries ∧ t.configurationTable ≠ nullptr := by
  unfold delivered
  split_ifs with hi
  · rw [t.configurationTables.address_ne_null_iff hi]
    exact ⟨fun h => ⟨hi, h⟩, fun h => h.2⟩
  · exact ⟨fun h => absurd rfl h, fun h => absurd h.1 hi⟩

end Delivered

end MuchCoolEfi.Configuration.Lookup
