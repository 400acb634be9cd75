import MuchCoolEfi.Configuration.Lookup
import MuchCoolEfi.Cxx.Run

/-! # Sequences of lookups

Any number of callers look up entries in any order, each through a slot of its own or through one
that is used again. What they want to know is the number of an entry: `answer` is the number a call
asks for, given the GUIDs of the entries, and an `Answers` is what all slots were told so far.

`Call.Fair` excludes the null slot and the one index that `getConfigurationTable` gets wrong. Under
it the memory represents the answers after every sequence of calls (`represents_run`). Without it,
the table still never changes (`run_tableAt`) and a slot never gets more than an address past the
last entry (`run_slotAt`).

The memory is one of typed objects, which no slot overlaps. For which slots in a memory of bytes this is
right is said in `Configuration.Refinement`. -/

namespace MuchCoolEfi.Configuration.Session

open MuchCoolEfi.Cxx.Contiguous MuchCoolEfi.Cxx.Effect MuchCoolEfi.Cxx.Run
open MuchCoolEfi.Core.Guids MuchCoolEfi.Core.StatusCode
open MuchCoolEfi.Configuration.Lookup

/-! ### Calls -/

inductive Call where
  | get (index : UInt64) (entry : Pointer)
  | find (guid : Guid) (entry : Pointer)

namespace Call

/-- The slot of the caller. -/
def entry : Call → Pointer
  | .get _ entry => entry
  | .find _ entry => entry

def exec (t : SystemTable) : Call → Body Status
  | .get index entry => t.getConfigurationTable index entry
  | .find guid entry => t.findConfigurationTable guid entry

/-- The slot is not null, and the index is not the number of entries. -/
def Fair (t : SystemTable) : Call → Prop
  | .get index entry => entry ≠ nullptr ∧ index ≠ t.numTableEntries
  | .find _ entry => entry ≠ nullptr

end Call

/-- The memory, what the calls returned so far and the preconditions they broke. -/
structure State where
  memory : Memory
  returned : List Status
  violations : List Violation

def step (t : SystemTable) (s : State) (c : Call) : State where
  memory := (c.exec t s.memory).memory
  returned := s.returned ++ [(c.exec t s.memory).value]
  violations := s.violations ++ (c.exec t s.memory).violations

/-! ### Answers -/

/-- The number of the entry a call asks for. -/
def answer (guids : List Guid) : Call → Option ℕ
  | .get index _ => if index.toNat < guids.length then some index.toNat else none
  | .find guid _ => guids.findIdx? fun g => g.operatorEq guid

/-- What each slot was told last, if anything. -/
abbrev Answers := Pointer → Option (Option ℕ)

/-- The answers after one more call. -/
def tell (guids : List Guid) (a : Answers) (c : Call) : Answers :=
  Function.update a c.entry (some (answer guids c))

/-- The GUIDs of the entries. -/
def guids (t : SystemTable) (m : Memory) : List Guid :=
  t.configurationTables.elements.map fun p => (m.tableAt p).guid

/-- The pointer stands for the answer. -/
def Denotes (t : SystemTable) (p : Pointer) : Option ℕ → Prop
  | none => p = nullptr
  | some i => t.configurationTables.elements[i]? = some p

theorem length_guids (t : SystemTable) (m : Memory) :
    (guids t m).length = t.numTableEntries.toNat := by
  unfold guids
  rw [List.length_map, Span.length_elements]
  rfl

/-- **A pointer stands for one answer only**: no entry is at null, and none is there twice. -/
theorem denotes_unique {t : SystemTable} {p : Pointer} :
    ∀ {x y : Option ℕ}, Denotes t p x → Denotes t p y → x = y
  | none, none, _, _ => rfl
  | none, some j, hx, hy => by
    have hp := t.configurationTables.ne_null_of_mem (List.mem_of_getElem? hy)
    exact absurd hx hp
  | some i, none, hx, hy => by
    have hp := t.configurationTables.ne_null_of_mem (List.mem_of_getElem? hx)
    exact absurd hy hp
  | some i, some j, hx, hy => by
    obtain ⟨hi, -⟩ := List.getElem?_eq_some_iff.mp hx
    have hnd := t.configurationTables.nodup_elements
    exact congrArg some ((List.getElem?_inj hi hnd).mp (hx.trans hy.symm))

/-! ### One call -/

section Exec

variable (t : SystemTable) (c : Call) (m : Memory)

/-- **Every call returns the word of `Success`.** -/
theorem exec_value : (c.exec t m).value = Enumerator.success.status := by
  rcases c with ⟨index, entry⟩ | ⟨guid, entry⟩
  · show (t.getConfigurationTable index entry m).value = _
    by_cases he : entry = nullptr
    · rw [he, getConfigurationTable_null]
      exact status_of_error rfl
    · rw [getConfigurationTable_eq t index m he]
  · show (t.findConfigurationTable guid entry m).value = _
    rw [findConfigurationTable_eq]

/-- What a call can store. -/
def Stored (t : SystemTable) (p : Pointer) : Prop :=
  p = nullptr ∨ p ∈ t.configurationTables.elements ∨ p = t.configurationTables.pastTheEnd

theorem stored_delivered (i : UInt64) : Stored t (delivered t i) := by
  by_cases hn : i = t.numTableEntries
  · rw [hn]
    exact Or.inr (Or.inr (delivered_size t))
  · rcases UInt64.lt_or_lt_of_ne hn with hi | hi
    · rw [delivered_of_lt t hi]
      exact Or.inr (Or.inl (t.configurationTables.mem_elements.mpr ⟨i, hi, rfl⟩))
    · exact Or.inl (delivered_of_gt t hi)

theorem stored_found (guid : Guid) : Stored t (found t guid m) := by
  unfold found
  cases h : t.configurationTables.elements.find? (hasGuid guid m) with
  | none => exact Or.inl rfl
  | some p => exact Or.inr (Or.inl (List.mem_of_find?_eq_some h))

/-- A call changes its slot or nothing. -/
theorem exec_memory :
    (c.exec t m).memory = m ∨
      ∃ p, Stored t p ∧ (c.exec t m).memory = m.setSlot c.entry p := by
  rcases c with ⟨index, entry⟩ | ⟨guid, entry⟩
  · by_cases he : entry = nullptr
    · left
      show (t.getConfigurationTable index entry m).memory = m
      rw [he, getConfigurationTable_null]
    · refine Or.inr ⟨delivered t index, stored_delivered t index, ?_⟩
      show (t.getConfigurationTable index entry m).memory = _
      rw [getConfigurationTable_eq t index m he]
      rfl
  · refine Or.inr ⟨found t guid m, stored_found t m guid, ?_⟩
    show (t.findConfigurationTable guid entry m).memory = _
    rw [findConfigurationTable_eq]
    rfl

theorem exec_tableAt : (c.exec t m).memory.tableAt = m.tableAt := by
  rcases exec_memory t c m with h | ⟨p, -, h⟩
  · rw [h]
  · rw [h, setSlot_tableAt]

theorem exec_slotAt_of_ne {other : Pointer} (ho : other ≠ c.entry) :
    (c.exec t m).memory.slotAt other = m.slotAt other := by
  rcases exec_memory t c m with h | ⟨p, -, h⟩
  · rw [h]
  · rw [h, setSlot_slotAt_of_ne m p ho]

/-- **A call reads nothing but the table**: what the slots held makes no difference. -/
theorem exec_congr {m m' : Memory} (h : m'.tableAt = m.tableAt) :
    (c.exec t m').value = (c.exec t m).value ∧ (c.exec t m').violations = (c.exec t m).violations ∧
      (c.entry ≠ nullptr →
        (c.exec t m').memory.slotAt c.entry = (c.exec t m).memory.slotAt c.entry) := by
  rcases c with ⟨index, entry⟩ | ⟨guid, entry⟩
  · simp only [Call.exec, Call.entry]
    by_cases he : entry = nullptr
    · rw [he, getConfigurationTable_null, getConfigurationTable_null]
      exact ⟨rfl, rfl, fun hne => absurd rfl hne⟩
    · rw [getConfigurationTable_eq t index m he, getConfigurationTable_eq t index m' he]
      exact ⟨rfl, rfl, fun _ => (setSlot_slotAt_self _ _ _).trans (setSlot_slotAt_self _ _ _).symm⟩
  · simp only [Call.exec, Call.entry]
    have hf : found t guid m' = found t guid m := by
      unfold found hasGuid
      rw [h]
    rw [findConfigurationTable_eq, findConfigurationTable_eq, hf]
    exact ⟨rfl, rfl, fun _ => (setSlot_slotAt_self _ _ _).trans (setSlot_slotAt_self _ _ _).symm⟩

variable {c}

theorem exec_defined (hc : c.Fair t) : (c.exec t m).violations = [] := by
  rcases c with ⟨index, entry⟩ | ⟨guid, entry⟩
  · obtain ⟨he, hi⟩ := hc
    show (t.getConfigurationTable index entry m).violations = []
    rw [getConfigurationTable_eq t index m he]
    exact if_neg hi
  · show (t.findConfigurationTable guid entry m).violations = []
    rw [findConfigurationTable_eq]
    exact if_pos hc

theorem denotes_delivered {i : UInt64} (hi : i ≠ t.numTableEntries) (entry : Pointer) :
    Denotes t (delivered t i) (answer (guids t m) (.get i entry)) := by
  show Denotes t (delivered t i) (if i.toNat < (guids t m).length then some i.toNat else none)
  rw [length_guids]
  rcases UInt64.lt_or_lt_of_ne hi with hlt | hlt
  · rw [if_pos (UInt64.lt_iff_toNat_lt.mp hlt), delivered_of_lt t hlt]
    exact t.configurationTables.getElem?_elements hlt
  · have hn : ¬ i.toNat < t.numTableEntries.toNat :=
      Nat.not_lt.mpr (Nat.le_of_lt (UInt64.lt_iff_toNat_lt.mp hlt))
    rw [if_neg hn]
    exact delivered_of_gt t hlt

theorem denotes_found (guid : Guid) (entry : Pointer) :
    Denotes t (found t guid m) (answer (guids t m) (.find guid entry)) := by
  have ha : answer (guids t m) (.find guid entry) =
      t.configurationTables.elements.findIdx? (hasGuid guid m) := List.findIdx?_map
  rw [ha]
  unfold found
  rw [List.find?_eq_bind_findIdx?_getElem?]
  cases h : t.configurationTables.elements.findIdx? (hasGuid guid m) with
  | none => rfl
  | some i =>
    obtain ⟨hi, -⟩ := List.findIdx?_eq_some_iff_getElem.mp h
    show t.configurationTables.elements[i]? = some _
    rw [Option.bind_some, List.getElem?_eq_getElem hi]
    rfl

/-- **A fair call tells its slot the answer.** -/
theorem exec_denotes (hc : c.Fair t) :
    Denotes t ((c.exec t m).memory.slotAt c.entry) (answer (guids t m) c) := by
  rcases c with ⟨index, entry⟩ | ⟨guid, entry⟩
  · obtain ⟨he, hi⟩ := hc
    show Denotes t ((t.getConfigurationTable index entry m).memory.slotAt entry) _
    rw [getConfigurationTable_eq t index m he, setSlot_slotAt_self]
    exact denotes_delivered t m hi entry
  · show Denotes t ((t.findConfigurationTable guid entry m).memory.slotAt entry) _
    rw [findConfigurationTable_eq, setSlot_slotAt_self]
    exact denotes_found t m guid entry

end Exec

/-! ### All calls -/

/-- The memory holds the answers, on top of what it held at the start. -/
structure Represents (t : SystemTable) (start : Memory) (s : State) (a : Answers) : Prop where
  tables : s.memory.tableAt = start.tableAt
  untold : ∀ p, a p = none → s.memory.slotAt p = start.slotAt p
  told : ∀ p x, a p = some x → Denotes t (s.memory.slotAt p) x
  defined : s.violations = []

section Runs

variable (t : SystemTable) {start : Memory}

theorem guids_congr {m m' : Memory} (h : m.tableAt = m'.tableAt) : guids t m = guids t m' := by
  unfold guids
  rw [h]

theorem represents_start : Represents t start ⟨start, [], []⟩ fun _ => none :=
  ⟨rfl, fun _ _ => rfl, fun _ _ h => (by cases h), rfl⟩

theorem represents_step {s : State} {a : Answers} {c : Call} (h : Represents t start s a)
    (hc : c.Fair t) : Represents t start (step t s c) (tell (guids t start) a c) := by
  have hg := guids_congr t h.tables
  refine ⟨(exec_tableAt t c s.memory).trans h.tables, fun p hp => ?_, fun p x hp => ?_, ?_⟩
  · have hne : p ≠ c.entry := by
      rintro rfl
      rw [tell, Function.update_self] at hp
      cases hp
    rw [tell, Function.update_of_ne hne] at hp
    exact (exec_slotAt_of_ne t c s.memory hne).trans (h.untold p hp)
  · by_cases hne : p = c.entry
    · subst hne
      rw [tell, Function.update_self] at hp
      obtain rfl := Option.some.inj hp
      rw [← hg]
      exact exec_denotes t s.memory hc
    · rw [tell, Function.update_of_ne hne] at hp
      have hs : (step t s c).memory.slotAt p = s.memory.slotAt p :=
        exec_slotAt_of_ne t c s.memory hne
      rw [hs]
      exact h.told p x hp
  · show s.violations ++ (c.exec t s.memory).violations = []
    rw [h.defined, exec_defined t s.memory hc]
    rfl

/-- **Fair calls are answered**: after every sequence of them the slots hold the answers, no
precondition was broken, and the table is what it was. -/
theorem represents_run (calls : List Call) (hc : ∀ c ∈ calls, c.Fair t) :
    Represents t start (run (step t) ⟨start, [], []⟩ calls)
      (run (tell (guids t start)) (fun _ => none) calls) := by
  have hstep (s : State) (a : Answers) (c : Call) (h : Represents t start s a) (hc : c.Fair t) :
      Represents t start (step t s c) (tell (guids t start) a c) := represents_step t h hc
  exact run_sim hstep calls _ _ (represents_start t) (allowed_of_mem calls _ hc)

/-- **No call changes the table**, whatever the calls are. -/
theorem run_tableAt (calls : List Call) (s : State) :
    (run (step t) s calls).memory.tableAt = s.memory.tableAt :=
  run_inv_of_forall (I := fun s' : State => s'.memory.tableAt = s.memory.tableAt)
    (fun s' c h => (exec_tableAt t c s'.memory).trans h) calls rfl

/-- What a slot holds after any calls: what it held before, null, the address of an entry or the
address past the last one. -/
theorem run_slotAt (calls : List Call) (s : State) (p : Pointer) :
    (run (step t) s calls).memory.slotAt p = s.memory.slotAt p ∨
      Stored t ((run (step t) s calls).memory.slotAt p) := by
  refine run_inv_of_forall (I := fun s' : State => s'.memory.slotAt p = s.memory.slotAt p ∨
    Stored t (s'.memory.slotAt p)) (fun s' c h => ?_) calls (Or.inl rfl)
  show (c.exec t s'.memory).memory.slotAt p = _ ∨ Stored t ((c.exec t s'.memory).memory.slotAt p)
  rcases exec_memory t c s'.memory with he | ⟨q, hq, he⟩
  · rw [he]
    exact h
  · rw [he]
    by_cases hp : p = c.entry
    · subst hp
      rw [setSlot_slotAt_self]
      exact Or.inr hq
    · rw [setSlot_slotAt_of_ne _ _ hp]
      exact h

end Runs

end MuchCoolEfi.Configuration.Session
