import MuchCoolEfi.Configuration.Lookup

/-! # Access by index and the walk over the table

`getConfigurationTable` is to agree with `configurationTables`: an index below the number of entries
delivers that element, every other index delivers null. A caller that counts up from `0` until it
gets a null (`walk`) then sees the elements, each once and in order.

The lookup rejects an index only above the number of entries, so at that number it forms and
delivers the address past the last entry. Every other index is right (`accessAgrees_iff`); the walk,
which cannot avoid that one, visits one entry too many (`walk_from`). -/

namespace MuchCoolEfi.Configuration.Walk

open MuchCoolEfi.Cxx.Contiguous MuchCoolEfi.Cxx.Effect
open MuchCoolEfi.Core.StatusCode
open MuchCoolEfi.Configuration.Lookup

/-! ### Access by index -/

/-- The lookup of `index` agrees with the span of the entries and stays inside it. -/
structure AccessAgrees (t : SystemTable) (index : UInt64) (entry : Pointer) (m : Memory) : Prop where
  inside : index < t.numTableEntries → t.configurationTables.elements[index.toNat]? =
    some ((t.getConfigurationTable index entry m).memory.slotAt entry)
  outside : t.numTableEntries ≤ index →
    (t.getConfigurationTable index entry m).memory.slotAt entry = nullptr
  defined : (t.getConfigurationTable index entry m).violations = []

/-- **The number of entries is the one index that goes wrong.** -/
theorem accessAgrees_iff (t : SystemTable) (index : UInt64) {entry : Pointer} (m : Memory)
    (he : entry ≠ nullptr) : AccessAgrees t index entry m ↔ index ≠ t.numTableEntries := by
  have heq := getConfigurationTable_eq t index m he
  constructor
  · intro h hn
    have hv := h.defined
    rw [heq, if_pos hn] at hv
    cases hv
  · intro hn
    refine ⟨fun hi => ?_, fun hi => ?_, by rw [heq, if_neg hn]⟩
    · rw [heq, setSlot_slotAt_self, delivered_of_lt t hi]
      exact t.configurationTables.getElem?_elements hi
    · rw [heq, setSlot_slotAt_self, delivered_of_gt t (UInt64.lt_of_le_of_ne hi hn.symm)]

/-! ### The walk -/

/-- The caller's loop from `index` on: look up an entry, stop at a null, go on with the next index
otherwise. `none` if the fuel runs out before a null is stored. -/
def walk (t : SystemTable) (entry : Pointer) : ℕ → UInt64 → Body (Option (List Pointer))
  | 0, _ => return none
  | fuel + 1, index => do
    let _ ← t.getConfigurationTable index entry
    let table ← inspect fun m => m.slotAt entry
    if table = nullptr then return some []
    else do
      let tables ← walk t entry fuel (index + 1)
      return tables.map (table :: ·)

/-- The walk ends, has seen the elements in order, and broke no precondition. -/
def WalkAgrees (t : SystemTable) (entry : Pointer) (m : Memory) : Prop :=
  ∃ fuel, (walk t entry fuel 0 m).value = some t.configurationTables.elements ∧
    (walk t entry fuel 0 m).violations = []

section

variable (t : SystemTable) {entry : Pointer} (he : entry ≠ nullptr)
include he

/-- One step of the walk, at an index where null is stored. -/
theorem walk_stop {index : UInt64} (fuel : ℕ) (m : Memory) (h : delivered t index = nullptr) :
    walk t entry (fuel + 1) index m =
      ⟨some [], m.setSlot entry nullptr,
        if index = t.numTableEntries then [.subscript index index] else []⟩ := by
  simp [walk, getConfigurationTable_eq t index m he, h]

/-- One step of the walk, at any other index. -/
theorem walk_next {index : UInt64} (fuel : ℕ) (m : Memory) (h : delivered t index ≠ nullptr) :
    walk t entry (fuel + 1) index m =
      ⟨(walk t entry fuel (index + 1) (m.setSlot entry (delivered t index))).value.map
          (delivered t index :: ·),
        (walk t entry fuel (index + 1) (m.setSlot entry (delivered t index))).memory,
        (if index = t.numTableEntries then [.subscript index index] else []) ++
          (walk t entry fuel (index + 1) (m.setSlot entry (delivered t index))).violations⟩ := by
  simp [walk, getConfigurationTable_eq t index m he, h]

omit he in
/-- The indices of a walk do not wrap around: the entries lie in the address space. -/
theorem toNat_add_one {index : UInt64} (h : index ≤ t.numTableEntries) :
    (index + 1).toNat = index.toNat + 1 := by
  have hs := t.in_space
  have hi := UInt64.le_iff_toNat_le.mp h
  rw [entrySize, configurationTableLayout_size] at hs
  rw [UInt64.toNat_add, Nat.mod_eq_of_lt]
  · rfl
  · show index.toNat + 1 < 2 ^ 64
    omega

/-- What the walk takes for an entry after the last one. -/
def extra (t : SystemTable) : List Pointer :=
  if t.configurationTable = nullptr then [] else [t.configurationTables.pastTheEnd]

omit he in
/-- **It is none of the entries.** -/
theorem extra_notMem {p : Pointer} (hp : p ∈ extra t) : p ∉ t.configurationTables.elements := by
  unfold extra at hp
  split_ifs at hp with h
  · cases hp
  · rw [List.mem_singleton.mp hp]
    exact t.configurationTables.pastTheEnd_notMem

/-- The walk from the number of entries on. -/
theorem walk_size (fuel : ℕ) (m : Memory) :
    (walk t entry (fuel + 2) t.numTableEntries m).value = some (extra t) ∧
      (walk t entry (fuel + 2) t.numTableEntries m).violations =
        [.subscript t.numTableEntries t.numTableEntries] := by
  have hd := delivered_ne_null_iff t (i := t.numTableEntries)
  unfold extra
  by_cases h : t.configurationTable = nullptr
  · have h0 : delivered t t.numTableEntries = nullptr := by
      by_contra hne
      exact (hd.mp hne).2 h
    rw [walk_stop t he _ _ h0, if_pos h, if_pos rfl]
    exact ⟨rfl, rfl⟩
  · have h0 : delivered t t.numTableEntries ≠ nullptr := hd.mpr ⟨UInt64.le_refl _, h⟩
    have hs := toNat_add_one t (UInt64.le_refl t.numTableEntries)
    have hlt : t.numTableEntries < t.numTableEntries + 1 := UInt64.lt_iff_toNat_lt.mpr (by omega)
    rw [walk_next t he _ _ h0, walk_stop t he _ _ (delivered_of_gt t hlt), if_neg h, if_pos rfl,
      if_neg (UInt64.ne_of_lt hlt).symm, delivered_size]
    exact ⟨rfl, rfl⟩

/-- **The walk from an index on**, by induction on the number of entries still to visit. -/
theorem walk_from : ∀ (k fuel : ℕ) (index : UInt64) (m : Memory),
    index.toNat + k = t.numTableEntries.toNat → k + 2 ≤ fuel →
    (walk t entry fuel index m).value =
        some (t.configurationTables.elements.drop index.toNat ++ extra t) ∧
      (walk t entry fuel index m).violations =
        [.subscript t.numTableEntries t.numTableEntries]
  | 0, fuel + 2, index, m, hk, _ => by
    have hi : index = t.numTableEntries := UInt64.toNat_inj.mp hk
    have hd : t.configurationTables.elements.drop index.toNat = [] := by
      rw [hi, List.drop_eq_nil_iff, Span.length_elements]
      exact Nat.le_refl _
    rw [hd, List.nil_append, hi]
    exact walk_size t he fuel m
  | k + 1, fuel + 1, index, m, hk, hf => by
    have hi : index < t.numTableEntries := UInt64.lt_iff_toNat_lt.mpr (by omega)
    have hs := toNat_add_one t (UInt64.le_of_lt hi)
    have hne : delivered t index ≠ nullptr := by
      rw [delivered_of_lt t hi]
      exact t.configurationTables.address_ne_null hi
    obtain ⟨hv, hb⟩ := walk_from k fuel (index + 1) (m.setSlot entry (delivered t index))
      (by omega) (by omega)
    rw [walk_next t he _ _ hne, if_neg (UInt64.ne_of_lt hi)]
    refine ⟨?_, hb⟩
    show Option.map _ (walk t entry fuel (index + 1) _).value = _
    rw [hv, hs, t.configurationTables.drop_elements hi, delivered_of_lt t hi]
    rfl

/-- **The walk over the whole table** visits the elements, then the address past them. -/
theorem walk_all {fuel : ℕ} (m : Memory) (hf : t.numTableEntries.toNat + 2 ≤ fuel) :
    (walk t entry fuel 0 m).value = some (t.configurationTables.elements ++ extra t) ∧
      (walk t entry fuel 0 m).violations =
        [.subscript t.numTableEntries t.numTableEntries] :=
  walk_from t he t.numTableEntries.toNat fuel 0 m (Nat.zero_add _) hf

/-- **A walk that ended is not changed by more fuel.** -/
theorem walk_add (d : ℕ) : ∀ (fuel : ℕ) (index : UInt64) (m : Memory) {tables : List Pointer},
    (walk t entry fuel index m).value = some tables →
      walk t entry (fuel + d) index m = walk t entry fuel index m
  | 0, _, _, _, h => by cases h
  | fuel + 1, index, m, tables, h => by
    rw [Nat.add_right_comm]
    by_cases hd : delivered t index = nullptr
    · rw [walk_stop t he _ m hd, walk_stop t he _ m hd]
    · rw [walk_next t he _ m hd] at h
      obtain ⟨tables', ht, -⟩ := Option.map_eq_some_iff.mp h
      rw [walk_next t he _ m hd, walk_next t he _ m hd, walk_add d fuel _ _ ht]

/-- **Every walk that ends** is the one of `walk_all`. -/
theorem walk_some {fuel : ℕ} {m : Memory} {tables : List Pointer}
    (h : (walk t entry fuel 0 m).value = some tables) :
    tables = t.configurationTables.elements ++ extra t ∧
      (walk t entry fuel 0 m).violations =
        [.subscript t.numTableEntries t.numTableEntries] := by
  have hadd := walk_add t he (t.numTableEntries.toNat + 2) fuel 0 m h
  have hle : t.numTableEntries.toNat + 2 ≤ fuel + (t.numTableEntries.toNat + 2) := by omega
  obtain ⟨hv, hb⟩ := walk_all t he m hle
  rw [hadd] at hv hb
  rw [h] at hv
  exact ⟨Option.some.inj hv, hb⟩

/-- **Exactly where access by index agrees with the span**: at every index but the number of
entries. The walk meets that one, so it never stays within the preconditions; what it delivers are
the entries, and after them the address past the last one unless the array is at null. -/
theorem access_exact (m : Memory) :
    (∀ index, AccessAgrees t index entry m ↔ index ≠ t.numTableEntries) ∧
    ¬ WalkAgrees t entry m ∧
    (∀ fuel, t.numTableEntries.toNat + 2 ≤ fuel →
      (walk t entry fuel 0 m).value = some (t.configurationTables.elements ++
        if t.configurationTable = nullptr then [] else [t.configurationTables.pastTheEnd])) ∧
    ((∃ fuel, (walk t entry fuel 0 m).value = some t.configurationTables.elements) ↔
      t.configurationTable = nullptr) := by
  refine ⟨fun index => accessAgrees_iff t index m he, ?_, fun fuel hf => (walk_all t he m hf).1, ?_⟩
  · rintro ⟨fuel, hv, hb⟩
    rw [(walk_some t he hv).2] at hb
    cases hb
  · constructor
    · rintro ⟨fuel, hv⟩
      have h := (walk_some t he hv).1
      unfold extra at h
      by_contra hne
      rw [if_neg hne] at h
      have hl := congrArg List.length h
      rw [List.length_append, List.length_singleton] at hl
      omega
    · intro h
      refine ⟨_, (walk_all t he m (Nat.le_refl _)).1.trans ?_⟩
      rw [extra, if_pos h, List.append_nil]

end

/-- In a table of one entry at `0x1000`, the index 0 is answered with that entry. -/
theorem access_exact_one :
    (0x2000 : Pointer) ≠ nullptr ∧
      AccessAgrees ⟨1, 0x1000, by decide, by decide⟩ 0 0x2000 .zero ∧
      ¬ WalkAgrees ⟨1, 0x1000, by decide, by decide⟩ 0x2000 .zero := by
  have h := access_exact ⟨1, 0x1000, by decide, by decide⟩ (by decide : (0x2000 : Pointer) ≠ nullptr) .zero
  exact ⟨by decide, (h.1 0).mpr (by decide), h.2.1⟩

/-- The index 1 of that table is answered with `0x1018` and not with null, and the walk takes that
address for an entry. -/
theorem access_fails_one :
    ¬ AccessAgrees ⟨1, 0x1000, by decide, by decide⟩ 1 0x2000 .zero ∧
      ((SystemTable.getConfigurationTable ⟨1, 0x1000, by decide, by decide⟩ 1 0x2000
        .zero).memory.slotAt 0x2000 = 0x1018) ∧
      (walk ⟨1, 0x1000, by decide, by decide⟩ 0x2000 3 0 .zero).value = some [0x1000, 0x1018] := by
  refine ⟨fun h => ?_, by decide, by decide⟩
  exact (accessAgrees_iff _ 1 _ (by decide)).mp h rfl

end MuchCoolEfi.Configuration.Walk
