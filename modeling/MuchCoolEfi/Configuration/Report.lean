import MuchCoolEfi.Configuration.Lookup

/-! # What the lookups report

After a lookup, the caller has a status and finds a pointer in `*entry`. `Reports entry o` says that
the two tell the same: both tests of the status are true exactly when the pointer is null, and for a
null `entry` nothing is stored and both tests are true.

The statuses the lookups return are all the word of `Success`, so no failure is ever reported
(`reports_iff_of_success`). What is left of the contract is the calls with an entry to deliver
(`reports_exact`). The lookups name the right enumerators, though: with the words these are meant to
have, only two calls are left that do not report (`reports_get_meant`, `reports_find_meant`). -/

namespace MuchCoolEfi.Configuration.Report

open MuchCoolEfi.Cxx.Contiguous MuchCoolEfi.Cxx.Effect
open MuchCoolEfi.Core.Guids MuchCoolEfi.Core.StatusCode
open MuchCoolEfi.Configuration.Lookup

/-- The status of a call tells whether it delivered an entry. -/
def Reports (entry : Pointer) (o : Outcome Memory Violation Status) : Prop :=
  if entry = nullptr then
    Violation.nullStore ∉ o.violations ∧ operatorNot o.value = true ∧ statusIsError o.value = true
  else
    (operatorNot o.value = true ↔ o.memory.slotAt entry = nullptr) ∧
      (statusIsError o.value = true ↔ o.memory.slotAt entry = nullptr)

/-- **A call that returns the word of `Success` reports a pointer and nothing else**: no null
pointer, no null argument. -/
theorem reports_iff_of_success {entry : Pointer} {o : Outcome Memory Violation Status}
    (h : o.value = Enumerator.success.status) :
    Reports entry o ↔ entry ≠ nullptr ∧ o.memory.slotAt entry ≠ nullptr := by
  have hn : operatorNot o.value = false := by rw [h]; rfl
  have he : statusIsError o.value = false := by rw [h]; rfl
  unfold Reports
  rw [hn, he]
  by_cases h0 : entry = nullptr
  · rw [if_pos h0]
    constructor
    · rintro ⟨-, hf, -⟩
      cases hf
    · rintro ⟨hne, -⟩
      exact absurd h0 hne
  · rw [if_neg h0]
    constructor
    · rintro ⟨h1, -⟩
      exact ⟨h0, fun hs => Bool.false_ne_true (h1.mpr hs)⟩
    · rintro ⟨-, hs⟩
      have hf : false = true ↔ o.memory.slotAt entry = nullptr :=
        ⟨fun hf => absurd hf Bool.false_ne_true, fun h1 => absurd h1 hs⟩
      exact ⟨hf, hf⟩

/-- A null argument of the lookup by index is not reported, although it is checked. -/
theorem not_reports_get_null (t : SystemTable) (index : UInt64) (m : Memory) :
    ¬ Reports nullptr (t.getConfigurationTable index nullptr m) := by
  rw [getConfigurationTable_null]
  intro h
  have hv : Enumerator.invalidParameter.status = Enumerator.success.status :=
    status_of_error rfl
  exact ((reports_iff_of_success hv).mp h).1 rfl

theorem reports_get (t : SystemTable) (index : UInt64) (entry : Pointer) (m : Memory) :
    Reports entry (t.getConfigurationTable index entry m) ↔
      entry ≠ nullptr ∧ index ≤ t.numTableEntries ∧ t.configurationTable ≠ nullptr := by
  by_cases he : entry = nullptr
  · subst he
    exact ⟨fun h => absurd h (not_reports_get_null t index m), fun h => absurd rfl h.1⟩
  · rw [getConfigurationTable_eq t index m he, reports_iff_of_success rfl, setSlot_slotAt_self,
      delivered_ne_null_iff]

theorem reports_find (t : SystemTable) (guid : Guid) (entry : Pointer) (m : Memory) :
    Reports entry (t.findConfigurationTable guid entry m) ↔
      entry ≠ nullptr ∧ ∃ i < t.numTableEntries,
        hasGuid guid m (t.configurationTables.address i) = true := by
  rw [findConfigurationTable_eq, reports_iff_of_success rfl, setSlot_slotAt_self, ne_eq (found _ _ _),
    found_eq_null]
  refine and_congr_right fun _ => ?_
  constructor
  · intro h
    by_contra hall
    exact h fun i hi => Bool.eq_false_iff.mpr fun hP => hall ⟨i, hi, hP⟩
  · rintro ⟨i, hi, hP⟩ h
    rw [h i hi] at hP
    cases hP

/-- **Exactly which calls report their outcome.** By index, those with a place for the answer, an
index up to the number of entries and an array that is not null; those that also stay within the
preconditions of `std::span` are the ones with an index below the number of entries. By GUID, those
with a place for the answer and an entry that has the GUID. -/
theorem reports_exact (t : SystemTable) (m : Memory) (entry : Pointer) :
    (∀ index, Reports entry (t.getConfigurationTable index entry m) ↔
      entry ≠ nullptr ∧ index ≤ t.numTableEntries ∧ t.configurationTable ≠ nullptr) ∧
    (∀ index, Reports entry (t.getConfigurationTable index entry m) ∧
        (t.getConfigurationTable index entry m).violations = [] ↔
      entry ≠ nullptr ∧ index < t.numTableEntries) ∧
    (∀ guid, Reports entry (t.findConfigurationTable guid entry m) ↔
      entry ≠ nullptr ∧ ∃ i < t.numTableEntries,
        (m.tableAt (t.configurationTables.address i)).guid.operatorEq guid = true) := by
  refine ⟨fun index => reports_get t index entry m, fun index => ?_,
    fun guid => reports_find t guid entry m⟩
  rw [reports_get]
  constructor
  · rintro ⟨⟨he, hi, -⟩, hv⟩
    refine ⟨he, UInt64.lt_of_le_of_ne hi fun hn => ?_⟩
    rw [getConfigurationTable_eq t index m he, if_pos hn] at hv
    cases hv
  · rintro ⟨he, hi⟩
    have hpos : 0 < t.numTableEntries := UInt64.lt_of_le_of_lt UInt64.zero_le hi
    refine ⟨⟨he, UInt64.le_of_lt hi, t.table_ne_null hpos⟩, ?_⟩
    rw [getConfigurationTable_eq t index m he, if_neg (UInt64.ne_of_lt hi)]

/-- A table without entries: the lookup of the entry 5 and that of any GUID store null and return
the word of `Success`; a null argument is answered with that word too, and one lookup writes
through it. -/
theorem reports_fails_empty :
    (¬ Reports 0x2000 ((SystemTable.empty 0x1000).getConfigurationTable 5 0x2000 .zero) ∧
      ¬ Reports nullptr ((SystemTable.empty 0x1000).getConfigurationTable 5 nullptr .zero)) ∧
    (¬ Reports 0x2000
        ((SystemTable.empty 0x1000).findConfigurationTable ⟨.replicate 16 1⟩ 0x2000 .zero) ∧
      ((SystemTable.empty 0x1000).findConfigurationTable ⟨.replicate 16 1⟩ nullptr .zero).violations =
        [.nullStore]) := by
  refine ⟨⟨fun h => ?_, not_reports_get_null _ _ _⟩, fun h => ?_, by decide⟩
  · exact absurd ((reports_get _ _ _ _).mp h).2.1 (by decide)
  · obtain ⟨i, hi, -⟩ := ((reports_find _ _ _ _).mp h).2
    exact absurd hi (UInt64.not_lt.mpr UInt64.zero_le)

/-! ### The contract under the encoding as it is meant -/

/-- The enumerator of the way out `getConfigurationTable` takes. -/
def getExit (t : SystemTable) (index : UInt64) (entry : Pointer) : Enumerator :=
  if entry = nullptr then .invalidParameter
  else if t.numTableEntries < index then .invalidParameter
  else .success

/-- The enumerator of the way out `findConfigurationTable` takes. -/
def findExit (t : SystemTable) (guid : Guid) (m : Memory) : Enumerator :=
  if found t guid m = nullptr then .notFound else .success

/-- The outcome, with the word that the enumerator has by the encoding. -/
def meant (e : Enumerator) (o : Outcome Memory Violation Status) : Outcome Memory Violation Status :=
  { o with value := ⟨wordOf e.kind e.code⟩ }

section Meant

variable (t : SystemTable) (index : UInt64) (guid : Guid) (entry : Pointer) (m : Memory)

theorem get_value :
    (t.getConfigurationTable index entry m).value = (getExit t index entry).status := by
  unfold getExit
  by_cases he : entry = nullptr
  · rw [if_pos he, he, getConfigurationTable_null]
  · rw [if_neg he]
    by_cases hi : t.numTableEntries < index
    · rw [if_pos hi, getConfigurationTable_gt t m he hi]
    · rw [if_neg hi, getConfigurationTable_le t m he (UInt64.not_lt.mp hi)]

theorem find_value :
    (t.findConfigurationTable guid entry m).value = (findExit t guid m).status := by
  unfold findExit
  rw [findConfigurationTable_eq]
  by_cases hf : found t guid m = nullptr
  · rw [if_pos hf, status_of_error (e := .notFound) rfl]
  · rw [if_neg hf]

variable {entry} {e : Enumerator} {o : Outcome Memory Violation Status}

/-- A success reports a pointer. -/
theorem reports_meant_success (he : entry ≠ nullptr) :
    Reports entry (meant .success o) ↔ o.memory.slotAt entry ≠ nullptr := by
  rw [reports_iff_of_success rfl]
  exact and_iff_right he

/-- An error reports a null pointer, and a null argument if it was left alone. -/
theorem reports_meant_error (hk : e.kind = .error) :
    Reports entry (meant e o) ↔
      if entry = nullptr then Violation.nullStore ∉ o.violations
      else o.memory.slotAt entry = nullptr := by
  have he : statusIsError (meant e o).value = true :=
    (statusIsError_wordOf (proper_declared e)).mpr hk
  have hn : operatorNot (meant e o).value = true := operatorNot_of_statusIsError he
  unfold Reports
  rw [he, hn]
  by_cases h0 : entry = nullptr
  · rw [if_pos h0, if_pos h0]
    exact ⟨fun h => h.1, fun h => ⟨h, rfl, rfl⟩⟩
  · rw [if_neg h0, if_neg h0]
    exact ⟨fun h => h.1.mp rfl, fun h => ⟨⟨fun _ => h, fun _ => rfl⟩, ⟨fun _ => h, fun _ => rfl⟩⟩⟩

/-- **With the words as meant, the lookup by index reports every outcome** but that of an accepted
index in an array at null. -/
theorem reports_get_meant :
    Reports entry (meant (getExit t index entry) (t.getConfigurationTable index entry m)) ↔
      entry = nullptr ∨ t.numTableEntries < index ∨ t.configurationTable ≠ nullptr := by
  unfold getExit
  by_cases he : entry = nullptr
  · rw [if_pos he, reports_meant_error rfl, if_pos he, he, getConfigurationTable_null]
    exact ⟨fun _ => Or.inl rfl, fun _ => List.not_mem_nil⟩
  · rw [if_neg he]
    by_cases hi : t.numTableEntries < index
    · rw [if_pos hi, reports_meant_error rfl, if_neg he, getConfigurationTable_gt t m he hi]
      exact ⟨fun _ => Or.inr (Or.inl hi), fun _ => setSlot_slotAt_self m entry nullptr⟩
    · rw [if_neg hi, reports_meant_success he, getConfigurationTable_eq t index m he,
        setSlot_slotAt_self, delivered_ne_null_iff]
      constructor
      · rintro ⟨-, hd⟩
        exact Or.inr (Or.inr hd)
      · rintro (h | h | h)
        · exact absurd h he
        · exact absurd h hi
        · exact ⟨UInt64.not_lt.mp hi, h⟩

/-- **With the words as meant, the search reports every outcome** but that of a null argument. -/
theorem reports_find_meant :
    Reports entry (meant (findExit t guid m) (t.findConfigurationTable guid entry m)) ↔
      entry ≠ nullptr := by
  unfold findExit
  rw [findConfigurationTable_eq]
  by_cases hf : found t guid m = nullptr
  · rw [if_pos hf, reports_meant_error rfl]
    by_cases he : entry = nullptr
    · rw [if_pos he, if_neg (not_not.mpr he)]
      exact ⟨fun h => absurd List.mem_cons_self h, fun h => absurd he h⟩
    · rw [if_neg he]
      exact ⟨fun _ => he, fun _ => (setSlot_slotAt_self m entry _).trans hf⟩
  · rw [if_neg hf]
    by_cases he : entry = nullptr
    · constructor
      · intro h
        exact ((reports_iff_of_success rfl).mp h).1
      · intro h
        exact absurd he h
    · rw [reports_meant_success he]
      exact ⟨fun _ => he, fun _ h => hf ((setSlot_slotAt_self m entry _).symm.trans h)⟩

end Meant

end MuchCoolEfi.Configuration.Report
