import MuchCoolEfi.Configuration.Lookup

/-! # The search by GUID

`findConfigurationTable` compares 16 bytes per entry. What a caller means by a GUID are the four
fields it was written with (`Init.denoted`), or the fields that its 16 bytes have in little-endian
order. `Matches` says that an entry has these fields, and `find_first` that the search delivers the
first entry that does. The GUIDs the source names differ in some field each, so two of them never
find the same entry (`found_known_ne`). -/

namespace MuchCoolEfi.Configuration.Search

open MuchCoolEfi.Cxx.Storage MuchCoolEfi.Cxx.Contiguous MuchCoolEfi.Cxx.Effect
open MuchCoolEfi.Core.Guids
open MuchCoolEfi.Configuration.Lookup

/-- The GUID of the entry `i` has the fields `g` stands for. -/
def Matches (t : SystemTable) (m : Memory) (g : Init) (i : UInt64) : Prop :=
  (m.tableAt (t.configurationTables.address i)).guid.fields = g.denoted

instance (t : SystemTable) (m : Memory) (g : Init) (i : UInt64) : Decidable (Matches t m g i) :=
  inferInstanceAs (Decidable (_ = _))

section

variable (t : SystemTable) (g : Init) (held : Bytes 16) (m : Memory)

/-- **Comparing bytes finds the fields**, whatever the storage of the GUID held before. -/
theorem hasGuid_iff {i : UInt64} :
    hasGuid (g.build held) m (t.configurationTables.address i) = true ↔ Matches t m g i :=
  operatorEq_build

theorem hasGuid_eq_false_iff {i : UInt64} :
    hasGuid (g.build held) m (t.configurationTables.address i) = false ↔ ¬ Matches t m g i := by
  rw [← hasGuid_iff t g held m, Bool.not_eq_true]

theorem found_first {i : UInt64} (hi : i < t.numTableEntries) (hm : Matches t m g i)
    (hj : ∀ j < i, ¬ Matches t m g j) :
    found t (g.build held) m = t.configurationTables.address i := by
  refine found_eq_address t _ m hi ((hasGuid_iff t g held m).mpr hm) fun j h => ?_
  exact (hasGuid_eq_false_iff t g held m).mpr (hj j h)

theorem found_eq_null_iff :
    found t (g.build held) m = nullptr ↔ ∀ i < t.numTableEntries, ¬ Matches t m g i := by
  rw [found_eq_null]
  constructor
  · intro h i hi
    exact (hasGuid_eq_false_iff t g held m).mp (h i hi)
  · intro h i hi
    exact (hasGuid_eq_false_iff t g held m).mpr (h i hi)

/-- A matching entry has a first one before it or is the first itself. -/
theorem exists_first : ∀ (n : ℕ) {i : UInt64}, i.toNat = n → Matches t m g i →
    ∃ j ≤ i, Matches t m g j ∧ ∀ k < j, ¬ Matches t m g k := by
  intro n
  induction n using Nat.strong_induction_on with
  | _ n ih =>
    intro i hn hm
    by_cases hj : ∃ j < i, Matches t m g j
    · obtain ⟨j, hji, hmj⟩ := hj
      have hlt : j.toNat < n := by
        rw [← hn]; exact UInt64.lt_iff_toNat_lt.mp hji
      obtain ⟨k, hkj, hmk, hk⟩ := ih j.toNat hlt rfl hmj
      exact ⟨k, UInt64.le_trans hkj (UInt64.le_of_lt hji), hmk, hk⟩
    · exact ⟨i, UInt64.le_refl i, hm, fun k hk hmk => hj ⟨k, hk, hmk⟩⟩

/-- **Only which of the entries match decides the result.** -/
theorem found_congr {m' : Memory}
    (h : ∀ i < t.numTableEntries, Matches t m' g i ↔ Matches t m g i) (held' : Bytes 16) :
    found t (g.build held') m' = found t (g.build held) m := by
  by_cases hex : ∃ i < t.numTableEntries, Matches t m g i
  · obtain ⟨i, hi, hm⟩ := hex
    obtain ⟨j, hji, hmj, hj⟩ := exists_first t g m i.toNat rfl hm
    have hlt : j < t.numTableEntries := UInt64.lt_of_le_of_lt hji hi
    rw [found_first t g held m hlt hmj hj]
    refine found_first t g held' m' hlt ((h j hlt).mpr hmj) fun k hk hmk => ?_
    exact hj k hk ((h k (UInt64.lt_trans hk hlt)).mp hmk)
  · have h0 : ∀ i < t.numTableEntries, ¬ Matches t m g i := fun i hi hm => hex ⟨i, hi, hm⟩
    rw [(found_eq_null_iff t g held m).mpr h0, found_eq_null_iff]
    intro i hi hm
    exact h0 i hi ((h i hi).mp hm)

/-- Entry `i` lies at `configurationTable + 24 * i`, which does not wrap around. -/
theorem toNat_entry {i : UInt64} (hi : i < t.numTableEntries) :
    (t.configurationTables.address i).toNat = t.configurationTable.toNat + 24 * i.toNat :=
  t.configurationTables.toNat_address (UInt64.le_of_lt hi)

/-- **The search delivers the first matching entry**, null exactly if there is none, depends on
nothing but which of the entries match, and changes nothing but `*entry`. -/
theorem find_first {entry : Pointer} (he : entry ≠ nullptr) :
    (∀ i < t.numTableEntries, Matches t m g i → (∀ j < i, ¬ Matches t m g j) →
      (t.findConfigurationTable (g.build held) entry m).memory.slotAt entry =
        t.configurationTables.address i) ∧
    ((t.findConfigurationTable (g.build held) entry m).memory.slotAt entry = nullptr ↔
      ∀ i < t.numTableEntries, ¬ Matches t m g i) ∧
    (∀ (m' : Memory) (held' : Bytes 16),
      (∀ i < t.numTableEntries, Matches t m' g i ↔ Matches t m g i) →
      (t.findConfigurationTable (g.build held') entry m').memory.slotAt entry =
        (t.findConfigurationTable (g.build held) entry m).memory.slotAt entry) ∧
    (t.findConfigurationTable (g.build held) entry m).memory.tableAt = m.tableAt ∧
    (∀ other, other ≠ entry →
      (t.findConfigurationTable (g.build held) entry m).memory.slotAt other = m.slotAt other) ∧
    (t.findConfigurationTable (g.build held) entry m).violations = [] := by
  have heq (held' m') : (t.findConfigurationTable (g.build held') entry m').memory.slotAt entry =
      found t (g.build held') m' := by
    rw [findConfigurationTable_eq]
    exact setSlot_slotAt_self _ _ _
  refine ⟨fun i hi hm hj => ?_, ?_, fun m' held' h => ?_, ?_, fun other ho => ?_, ?_⟩
  · rw [heq]
    exact found_first t g held m hi hm hj
  · rw [heq]
    exact found_eq_null_iff t g held m
  · rw [heq, heq]
    exact found_congr t g held m h held'
  · rw [findConfigurationTable_eq]
    rfl
  · rw [findConfigurationTable_eq]
    exact setSlot_slotAt_of_ne m _ ho
  · rw [findConfigurationTable_eq]
    exact if_pos he

end

/-- Of three entries at `0x1000`, the last two with the GUID of sixteen bytes `7`, the search for
that GUID delivers the second. -/
theorem find_first_duplicates :
    (SystemTable.findConfigurationTable ⟨3, 0x1000, by decide, by decide⟩
      ((Init.bytes (.replicate 16 7)).build (.replicate 16 1)) 0x2000
      { tableAt := fun p => ⟨⟨.replicate 16 (if p = 0x1000 then 0 else 7)⟩, nullptr⟩
        slotAt := fun _ => nullptr }).memory.slotAt 0x2000 = 0x1018 := by
  refine (find_first ⟨3, 0x1000, by decide, by decide⟩ (.bytes (.replicate 16 7))
    (.replicate 16 1) _ (by decide)).1 1 (by decide) (by decide) fun j hj => ?_
  have h0 : j = 0 := UInt64.lt_one_iff.mp hj
  subst h0
  decide

/-! ### The GUIDs of the known tables -/

/-- The tables the source names a GUID for. -/
inductive KnownTable where
  | mps | acpi | acpi20 | smbios | smbios3 | salSystem | dtb
deriving DecidableEq

def KnownTable.fields : KnownTable → Fields
  | .mps => ⟨0xeb9d2d2f, 0x2d88, 0x11d3, #v[0x9a, 0x16, 0x0, 0x90, 0x27, 0x3f, 0xc1, 0x4d]⟩
  | .acpi => ⟨0xeb9d2d30, 0x2d88, 0x11d3, #v[0x9a, 0x16, 0x0, 0x90, 0x27, 0x3f, 0xc1, 0x4d]⟩
  | .acpi20 => ⟨0x8868e871, 0xe4f1, 0x11d3, #v[0xbc, 0x22, 0x0, 0x80, 0xc7, 0x3c, 0x88, 0x81]⟩
  | .smbios => ⟨0xeb9d2d31, 0x2d88, 0x11d3, #v[0x9a, 0x16, 0x0, 0x90, 0x27, 0x3f, 0xc1, 0x4d]⟩
  | .smbios3 => ⟨0xf2fd1544, 0x9794, 0x4a2c, #v[0x99, 0x2e, 0xe5, 0xbb, 0xcf, 0x20, 0xe3, 0x94]⟩
  | .salSystem => ⟨0xeb9d2d32, 0x2d88, 0x11d3, #v[0x9a, 0x16, 0x0, 0x90, 0x27, 0x3f, 0xc1, 0x4d]⟩
  | .dtb => ⟨0xb1b621d5, 0xf19c, 0x41a5, #v[0x83, 0x0b, 0xd9, 0x15, 0x2c, 0x69, 0xaa, 0xe0]⟩

/-- Several of them differ in one byte, but each in some field. -/
theorem knownTable_fields_inj {a b : KnownTable} (h : a.fields = b.fields) : a = b := by
  revert h
  cases a <;> cases b <;> decide

/-- **No entry is delivered for two known tables**, whatever the entries are. -/
theorem found_known_ne (t : SystemTable) (held held' : Bytes 16) (m : Memory) {a b : KnownTable}
    (hab : a ≠ b) (hf : found t ((Init.fields a.fields).build held) m ≠ nullptr) :
    found t ((Init.fields a.fields).build held) m ≠
      found t ((Init.fields b.fields).build held') m := by
  intro he
  have ha := operatorEq_build.mp (hasGuid_found t _ m hf)
  rw [he] at hf ha
  have hb := operatorEq_build.mp (hasGuid_found t _ m hf)
  exact hab (knownTable_fields_inj (ha.symm.trans hb))

end MuchCoolEfi.Configuration.Search
