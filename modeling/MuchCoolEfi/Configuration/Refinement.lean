import Mathlib.Data.List.Find
import Mathlib.Data.Set.Function
import MuchCoolEfi.Configuration.Session
import MuchCoolEfi.Cxx.FlatMemory

/-! # The lookups on bytes

The lookups once more, on flat memory: the system table, the array and the callers' slots are bytes,
and a member is read where the layout of its class puts it. An `Arrangement` says where these objects
lie, the slots apart from the rest and from one another; `Holds` says that the bytes are those of a
system table and a memory of typed objects.

Every call on bytes does what the call on typed objects does (`exec_sim`), also any number of calls
(`corresponds_run`), so what the callers are told is read off the bytes (`told_run`). Calls through
these slots that are not fair store at worst the address past the array (`run_slot`) and do not disturb
later ones (`exec_after_run`). Whatever the calls are, they write to the slots they are given and nowhere
else (`run_byte`). -/

namespace MuchCoolEfi.Configuration.Refinement

open MuchCoolEfi.Cxx.Storage MuchCoolEfi.Cxx.LittleEndian MuchCoolEfi.Cxx.Contiguous
open MuchCoolEfi.Cxx.Effect MuchCoolEfi.Cxx.Run MuchCoolEfi.Cxx.Record MuchCoolEfi.Cxx.FlatMemory
open MuchCoolEfi.Core.Guids MuchCoolEfi.Core.StatusCode
open MuchCoolEfi.Configuration.Lookup MuchCoolEfi.Configuration.Session

/-! ### The classes -/

/-- `class Table`: the signature, the revision, the size of the header, its checksum and a reserved
word. -/
def table : ClassType := ⟨none, [.uint64, .uint32, .uint32, .uint32, .uint32]⟩

/-- `class SystemTable`, from `firmware_vendor_` and `firmware_revision_` over the three consoles,
each a handle and a protocol, and the two services, to the number of entries and their array. -/
def systemTable : ClassType := table.derive
  [.pointer, .uint32, .pointer, .pointer, .pointer, .pointer, .pointer, .pointer, .pointer, .pointer,
    .uint64, .pointer]

def numTableEntriesMember : systemTable.Member := ⟨11, by decide⟩
def configurationTableMember : systemTable.Member := ⟨12, by decide⟩

/-- `class ConfigurationTable`. -/
def configurationTable : ClassType := ⟨none, [.object guidLayout, .pointer]⟩

def vendorGuidMember : configurationTable.Member := ⟨0, by decide⟩
def vendorTableMember : configurationTable.Member := ⟨1, by decide⟩

/-- `num_table_entries_`. -/
def numTableEntries (this : Pointer) (m : Flat) : UInt64 := memberAt numTableEntriesMember this m

/-- `configuration_table_`. -/
def configurationTablePointer (this : Pointer) (m : Flat) : Pointer :=
  memberAt configurationTableMember this m

/-- `guid()` of the entry at `p`. -/
def guidAt (p : Pointer) (m : Flat) : Guid := ⟨memberAt vendorGuidMember p m⟩

/-- The entry at `p`. -/
def entryAt (p : Pointer) (m : Flat) : ConfigurationTable :=
  ⟨guidAt p m, memberAt vendorTableMember p m⟩

/-! ### The lookups -/

abbrev FlatBody := Exec Flat Violation

/-- `*entry = p`. -/
def assign (entry p : Pointer) : FlatBody Unit := do
  require (entry ≠ nullptr) .nullStore
  update (writeAt entry (encode 8 p.toNat))

/-- `&span[index]`, for the span of `size` entries at `data`. -/
def subscript (data : Pointer) (size index : UInt64) : FlatBody Pointer := do
  require (index < size) (.subscript index size)
  return data + UInt64.ofNat configurationTable.size * index

def getConfigurationTable (this : Pointer) (index : UInt64) (entry : Pointer) : FlatBody Status :=
  if entry = nullptr then return Enumerator.invalidParameter.status
  else do
    let size ← inspect (numTableEntries this)
    if index > size then
      assign entry nullptr
      return Enumerator.invalidParameter.status
    else
      let data ← inspect (configurationTablePointer this)
      assign entry (← subscript data size index)
      return Enumerator.success.status

/-- The addresses a range-based `for` over the span visits. -/
def entries (data : Pointer) (size : UInt64) : List Pointer :=
  (List.range size.toNat).map fun i =>
    data + UInt64.ofNat configurationTable.size * UInt64.ofNat i

/-- The loop of `findConfigurationTable` over the entries still to visit, and what follows it. -/
def findLoop (guid : Guid) (entry : Pointer) : List Pointer → FlatBody Status
  | [] => do
    assign entry nullptr
    return Enumerator.notFound.status
  | table :: tables => do
    if (← inspect (guidAt table)).operatorEq guid then
      assign entry table
      return Enumerator.success.status
    else findLoop guid entry tables

def findConfigurationTable (this : Pointer) (guid : Guid) (entry : Pointer) : FlatBody Status := do
  let data ← inspect (configurationTablePointer this)
  let size ← inspect (numTableEntries this)
  findLoop guid entry (entries data size)

def exec (this : Pointer) : Call → FlatBody Status
  | .get index entry => getConfigurationTable this index entry
  | .find guid entry => findConfigurationTable this guid entry

/-- The memory, what the calls returned so far and the preconditions they broke. -/
structure FlatState where
  memory : Flat
  returned : List Status
  violations : List Violation

def step (this : Pointer) (s : FlatState) (c : Call) : FlatState where
  memory := (exec this c s.memory).memory
  returned := s.returned ++ [(exec this c s.memory).value]
  violations := s.violations ++ (exec this c s.memory).violations

/-! ### What a call writes -/

section Writes

variable (this : Pointer) (m : Flat)

theorem assign_apply (entry p : Pointer) :
    assign entry p m = ⟨(), writeAt entry (encode 8 p.toNat) m,
      if entry ≠ nullptr then [] else [.nullStore]⟩ := by
  simp [assign]

theorem subscript_apply (data : Pointer) (size index : UInt64) :
    subscript data size index m = ⟨data + UInt64.ofNat configurationTable.size * index, m,
      if index < size then [] else [.subscript index size]⟩ := by
  simp [subscript]

section Get

variable {index : UInt64} {entry : Pointer}

theorem getConfigurationTable_null :
    getConfigurationTable this index nullptr m = ⟨Enumerator.invalidParameter.status, m, []⟩ := by
  simp [getConfigurationTable]

theorem getConfigurationTable_gt (he : entry ≠ nullptr) (hi : numTableEntries this m < index) :
    getConfigurationTable this index entry m = ⟨Enumerator.invalidParameter.status,
      writeAt entry (encode 8 nullptr.toNat) m, []⟩ := by
  simp [getConfigurationTable, he, hi, assign_apply]

theorem getConfigurationTable_le (he : entry ≠ nullptr) (hi : index ≤ numTableEntries this m) :
    getConfigurationTable this index entry m = ⟨Enumerator.success.status,
      writeAt entry (encode 8 (configurationTablePointer this m +
        UInt64.ofNat configurationTable.size * index).toNat) m,
      if index < numTableEntries this m then [] else
        [.subscript index (numTableEntries this m)]⟩ := by
  have hn : ¬ numTableEntries this m < index := UInt64.not_lt.mpr hi
  simp [getConfigurationTable, he, hn, assign_apply, subscript_apply]

end Get

theorem findConfigurationTable_eq (guid : Guid) (entry : Pointer) :
    findConfigurationTable this guid entry m = findLoop guid entry
      (entries (configurationTablePointer this m) (numTableEntries this m)) m := by
  simp [findConfigurationTable]

/-- The memory is as it was, or a pointer was written to `entry`. -/
def Writes (entry : Pointer) (m m' : Flat) : Prop :=
  m' = m ∨ ∃ p : Pointer, m' = writeAt entry (encode 8 p.toNat) m

/-- The loop, with what it writes given as the result of `List.find?`. -/
theorem findLoop_eq (guid : Guid) (entry : Pointer) : ∀ ps : List Pointer,
    findLoop guid entry ps m =
      match ps.find? fun p => (guidAt p m).operatorEq guid with
      | some p => ⟨Enumerator.success.status, writeAt entry (encode 8 p.toNat) m,
          if entry ≠ nullptr then [] else [.nullStore]⟩
      | none => ⟨Enumerator.notFound.status, writeAt entry (encode 8 nullptr.toNat) m,
          if entry ≠ nullptr then [] else [.nullStore]⟩
  | [] => by simp [findLoop, assign_apply]
  | p :: ps => by
    have ih := findLoop_eq guid entry ps
    by_cases hp : (guidAt p m).operatorEq guid = true
    · simp [findLoop, hp, assign_apply]
    · rw [Bool.not_eq_true] at hp
      simp [findLoop, hp, ih]

theorem findLoop_writes (guid : Guid) (entry : Pointer) (ps : List Pointer) :
    Writes entry m (findLoop guid entry ps m).memory := by
  rw [findLoop_eq]
  cases ps.find? fun p => (guidAt p m).operatorEq guid with
  | none => exact Or.inr ⟨nullptr, rfl⟩
  | some p => exact Or.inr ⟨p, rfl⟩

/-- **A call writes to its slot or nowhere.** -/
theorem exec_writes (c : Call) : Writes c.entry m (exec this c m).memory := by
  rcases c with ⟨index, entry⟩ | ⟨guid, entry⟩
  · show Writes entry m (getConfigurationTable this index entry m).memory
    by_cases he : entry = nullptr
    · rw [he, getConfigurationTable_null]
      exact Or.inl rfl
    · rcases UInt64.lt_or_le (numTableEntries this m) index with hi | hi
      · rw [getConfigurationTable_gt this m he hi]
        exact Or.inr ⟨_, rfl⟩
      · rw [getConfigurationTable_le this m he hi]
        exact Or.inr ⟨_, rfl⟩
  · show Writes entry m (findConfigurationTable this guid entry m).memory
    rw [findConfigurationTable_eq]
    exact findLoop_writes m guid entry _

/-- **Every other byte is what it was**, after any calls: fair or not, with slots that overlap the
table or one another, even with slots that wrap around the end of the address space. -/
theorem run_byte {a : Pointer} : ∀ (calls : List Call) (s : FlatState),
    (∀ c ∈ calls, 8 ≤ (a - c.entry).toNat) → (run (step this) s calls).memory a = s.memory a
  | [], _, _ => rfl
  | c :: calls, s, h => by
    have hc := h c List.mem_cons_self
    rw [run, run_byte calls _ fun c' hc' => h c' (List.mem_cons_of_mem c hc')]
    show (exec this c s.memory).memory a = s.memory a
    rcases exec_writes this s.memory c with hw | ⟨p, hw⟩
    · rw [hw]
    · rw [hw]
      exact dif_neg (Nat.not_lt.mpr hc)

end Writes

/-- Eight bytes are written, the one after them is not. -/
theorem run_byte_one : 8 ≤ ((0x2008 : Pointer) - 0x2000).toNat ∧
    (run (step 0x1000) ⟨fun _ => 7, [], []⟩ [.get 9 0x2000]).memory 0x2008 = 7 :=
  ⟨by decide, run_byte 0x1000 [.get 9 0x2000] ⟨fun _ => 7, [], []⟩ fun c hc => by
    obtain rfl := List.mem_singleton.mp hc
    decide⟩

/-! ### Where the objects lie -/

/-- A system table and its place, and the slots of the callers. No slot shares a byte with the system
table, with the array or with another slot. -/
structure Arrangement where
  t : SystemTable
  this : Place systemTable.size
  slots : Set (Place 8)
  slot_this : ∀ q ∈ slots, q.Apart this
  slot_tables : ∀ q ∈ slots, q.Apart ⟨t.configurationTable, t.in_space⟩
  slot_slot : ∀ q ∈ slots, ∀ r ∈ slots, q = r ∨ q.Apart r

namespace Arrangement

variable (A : Arrangement)

/-- The place of the array. -/
def tables : Place (entrySize * A.t.numTableEntries.toNat) :=
  ⟨A.t.configurationTable, A.t.in_space⟩

/-- The place of an entry. -/
def entryPlace (i : Fin A.t.numTableEntries.toNat) : Place configurationTable.size :=
  A.tables.sub (elementField i)

theorem entryPlace_start (i : Fin A.t.numTableEntries.toNat) :
    (A.entryPlace i).start = A.t.configurationTables.address (UInt64.ofNat i) := by
  show A.t.configurationTable + UInt64.ofNat (entrySize * i) =
    A.t.configurationTable + UInt64.ofNat entrySize * UInt64.ofNat i
  rw [UInt64.ofNat_mul]

/-- **Every entry lies apart from every slot.** -/
theorem entry_apart {p : Pointer} (hp : p ∈ A.t.configurationTables.elements) {q : Place 8}
    (hq : q ∈ A.slots) : ∃ place : Place configurationTable.size, place.start = p ∧ place.Apart q := by
  obtain ⟨i, hi, rfl⟩ := List.mem_map.mp hp
  refine ⟨A.entryPlace ⟨i, List.mem_range.mp hi⟩, A.entryPlace_start _, ?_⟩
  exact (A.slot_tables q hq).symm.sub _

/-- The slot of the call is one of the slots; a lookup by index may also be given null. -/
def Slotted : Call → Prop
  | .get _ entry => entry = nullptr ∨ ∃ q ∈ A.slots, q.start = entry
  | .find _ entry => ∃ q ∈ A.slots, q.start = entry

variable {A} in
theorem Slotted.exists_slot : ∀ {c : Call}, A.Slotted c → c.entry ≠ nullptr →
    ∃ q ∈ A.slots, q.start = c.entry
  | .get _ _, h, hne => h.resolve_left hne
  | .find _ _, h, _ => h

/-- **The bytes are those of the table and of the typed objects.** -/
structure Holds (f : Flat) (m : Memory) : Prop where
  size : numTableEntries A.this.start f = A.t.numTableEntries
  data : configurationTablePointer A.this.start f = A.t.configurationTable
  entry : ∀ p ∈ A.t.configurationTables.elements, entryAt p f = m.tableAt p
  slot : ∀ q ∈ A.slots, loadU64 (readAt 8 q.start f) = m.slotAt q.start

variable {A} {f : Flat} {m : Memory}

/-- What an entry holds depends on its bytes only. -/
theorem entryAt_congr {p : Pointer} {f' : Flat}
    (h : readAt configurationTable.size p f' = readAt configurationTable.size p f) :
    entryAt p f' = entryAt p f := by
  unfold entryAt guidAt
  rw [memberAt_congr vendorGuidMember h, memberAt_congr vendorTableMember h]

/-- **Writing to a slot** does to the bytes what it does to the typed objects. -/
theorem Holds.setSlot (h : A.Holds f m) {q : Place 8} (hq : q ∈ A.slots) (p : Pointer) :
    A.Holds (writeAt q.start (encode 8 p.toNat) f) (m.setSlot q.start p) := by
  have hthis : readAt systemTable.size A.this.start (writeAt q.start (encode 8 p.toNat) f) =
      readAt systemTable.size A.this.start f :=
    readAt_writeAt_of_apart q _ f (A.slot_this q hq).symm
  refine ⟨?_, ?_, fun e he => ?_, fun r hr => ?_⟩
  · rw [← h.size]
    exact memberAt_congr numTableEntriesMember hthis
  · rw [← h.data]
    exact memberAt_congr configurationTableMember hthis
  · obtain ⟨place, rfl, hap⟩ := A.entry_apart he hq
    rw [setSlot_tableAt, ← h.entry _ he]
    exact entryAt_congr (readAt_writeAt_of_apart q _ f hap)
  · rcases A.slot_slot r hr q hq with rfl | hap
    · rw [readAt_writeAt_self, loadU64_encode, setSlot_slotAt_self]
    · have hne : r.start ≠ q.start := by
        intro he
        unfold Place.Apart at hap
        rw [he] at hap
        omega
      rw [readAt_writeAt_of_apart q _ f hap, setSlot_slotAt_of_ne m p hne]
      exact h.slot r hr

/-- The bytes of the system table, of the array and of the slots. -/
def bytes (A : Arrangement) : Set Pointer :=
  {a | A.this.Covers a ∨ A.tables.Covers a ∨ ∃ q ∈ A.slots, q.Covers a}

/-- **Nothing else matters**: what leaves these bytes alone leaves the objects what they are. -/
theorem Holds.of_eqOn (h : A.Holds f m) {f' : Flat} (he : Set.EqOn f' f A.bytes) :
    A.Holds f' m := by
  have hthis := A.this.readAt_of_agree fun a ha => he (Or.inl ha)
  have htables := A.tables.readAt_of_agree fun a ha => he (Or.inr (Or.inl ha))
  refine ⟨?_, ?_, fun e hm => ?_, fun q hq => ?_⟩
  · rw [← h.size]
    exact memberAt_congr numTableEntriesMember hthis
  · rw [← h.data]
    exact memberAt_congr configurationTableMember hthis
  · rw [← h.entry e hm]
    obtain ⟨i, hi, rfl⟩ := List.mem_map.mp hm
    rw [← A.entryPlace_start ⟨i, List.mem_range.mp hi⟩]
    refine entryAt_congr ?_
    -- the entry is a part of the array
    have hsub := readAt_add A.tables.start (elementField (w := configurationTable.size)
      (⟨i, List.mem_range.mp hi⟩ : Fin A.t.numTableEntries.toNat))
    exact (hsub f').trans ((congrArg _ htables).trans (hsub f).symm)
  · rw [← h.slot q hq, q.readAt_of_agree fun a ha => he (Or.inr (Or.inr ⟨q, hq, ha⟩))]

/-! ### Calls on bytes are calls on typed objects -/

/-- The same status, the same broken preconditions, and memories that correspond. -/
structure Agrees (A : Arrangement) (x : Outcome Flat Violation Status)
    (y : Outcome Memory Violation Status) : Prop where
  value : x.value = y.value
  violations : x.violations = y.violations
  memory : A.Holds x.memory y.memory

theorem getConfigurationTable_sim (h : A.Holds f m) {index : UInt64} {entry : Pointer}
    (hs : A.Slotted (.get index entry)) :
    Agrees A (Refinement.getConfigurationTable A.this.start index entry f)
      (A.t.getConfigurationTable index entry m) := by
  by_cases he : entry = nullptr
  · rw [he, Refinement.getConfigurationTable_null, Lookup.getConfigurationTable_null]
    exact ⟨rfl, rfl, h⟩
  · obtain ⟨q, hq, rfl⟩ := hs.resolve_left he
    have hsize := h.size
    rcases UInt64.lt_or_le A.t.numTableEntries index with hi | hi
    · rw [Lookup.getConfigurationTable_gt A.t m he hi,
        Refinement.getConfigurationTable_gt _ f he (hsize ▸ hi)]
      exact ⟨rfl, rfl, h.setSlot hq nullptr⟩
    · rw [Lookup.getConfigurationTable_le A.t m he hi,
        Refinement.getConfigurationTable_le _ f he (hsize ▸ hi), hsize, h.data]
      exact ⟨rfl, rfl, h.setSlot hq _⟩

theorem findLoop_sim (h : A.Holds f m) (guid : Guid) {q : Place 8} (hq : q ∈ A.slots)
    {ps : List Pointer} (hps : ∀ p ∈ ps, p ∈ A.t.configurationTables.elements) :
    Agrees A (Refinement.findLoop guid q.start ps f)
      (SystemTable.findLoop guid q.start ps m) := by
  have hg : (ps.find? fun p => (guidAt p f).operatorEq guid) = ps.find? (hasGuid guid m) := by
    refine List.find?_congr fun p hp => ?_
    have he := congrArg ConfigurationTable.guid (h.entry p (hps p hp))
    exact congrArg (fun g : Guid => g.operatorEq guid) he
  rw [Refinement.findLoop_eq, Lookup.findLoop_eq, hg]
  cases ps.find? (hasGuid guid m) with
  | none => exact ⟨rfl, rfl, h.setSlot hq nullptr⟩
  | some p => exact ⟨rfl, rfl, h.setSlot hq p⟩

/-- **A call on bytes is the call on typed objects.** -/
theorem exec_sim (h : A.Holds f m) {c : Call} (hs : A.Slotted c) :
    Agrees A (exec A.this.start c f) (c.exec A.t m) := by
  rcases c with ⟨index, entry⟩ | ⟨guid, entry⟩
  · exact getConfigurationTable_sim h hs
  · obtain ⟨q, hq, rfl⟩ := hs
    show Agrees A (Refinement.findConfigurationTable A.this.start guid q.start f)
      (A.t.findConfigurationTable guid q.start m)
    rw [Refinement.findConfigurationTable_eq, h.size, h.data]
    exact findLoop_sim h guid hq fun _ hp => hp

/-! ### All calls -/

/-- The memories correspond, the calls returned the same and broke the same preconditions. -/
structure Corresponds (A : Arrangement) (s : FlatState) (s' : State) : Prop where
  memory : A.Holds s.memory s'.memory
  returned : s.returned = s'.returned
  violations : s.violations = s'.violations

theorem corresponds_step {s : FlatState} {s' : State} (h : A.Corresponds s s') {c : Call}
    (hc : A.Slotted c) :
    A.Corresponds (Refinement.step A.this.start s c) (Session.step A.t s' c) := by
  have hx := exec_sim h.memory hc
  refine ⟨hx.memory, ?_, ?_⟩
  · show s.returned ++ _ = s'.returned ++ _
    rw [h.returned, hx.value]
  · show s.violations ++ _ = s'.violations ++ _
    rw [h.violations, hx.violations]

theorem holds_run (calls : List Call) (hc : ∀ c ∈ calls, A.Slotted c) (h : A.Holds f m) :
    A.Holds (run (Refinement.step A.this.start) ⟨f, [], []⟩ calls).memory
      (run (Session.step A.t) ⟨m, [], []⟩ calls).memory := by
  have hstep (s : FlatState) (s' : State) (c : Call) (h : A.Holds s.memory s'.memory)
      (hc : A.Slotted c) : A.Holds (Refinement.step A.this.start s c).memory
        (Session.step A.t s' c).memory := (exec_sim h hc).memory
  exact run_sim hstep calls ⟨f, [], []⟩ ⟨m, [], []⟩ h (allowed_of_mem calls _ hc)

/-- **Any number of calls on bytes** does what they do on typed objects, also where they break
preconditions. -/
theorem corresponds_run (calls : List Call) (hc : ∀ c ∈ calls, A.Slotted c) {s : FlatState}
    {s' : State} (h : A.Corresponds s s') :
    A.Corresponds (run (Refinement.step A.this.start) s calls)
      (run (Session.step A.t) s' calls) := by
  have hstep (s : FlatState) (s' : State) (c : Call) (h : A.Corresponds s s')
      (hc : A.Slotted c) :
      A.Corresponds (Refinement.step A.this.start s c) (Session.step A.t s' c) :=
    corresponds_step h hc
  exact run_sim hstep calls s s' h (allowed_of_mem calls s hc)

/-- The GUIDs of the entries, as bytes. -/
def guidsAt (A : Arrangement) (f : Flat) : List Guid :=
  (entries (configurationTablePointer A.this.start f) (numTableEntries A.this.start f)).map
    fun p => guidAt p f

theorem Holds.guidsAt_eq (h : A.Holds f m) : A.guidsAt f = guids A.t m := by
  unfold guidsAt
  rw [h.size, h.data]
  refine List.map_congr_left fun p hp => ?_
  exact congrArg ConfigurationTable.guid (h.entry p hp)

/-- The bytes of a slot are what it was told, or what it held. -/
theorem Holds.slot_told (h : A.Holds f m) {f' : Flat} {s : State} {a : Answers}
    (hs : A.Holds f' s.memory) (ha : Represents A.t m s a) {q : Place 8} (hq : q ∈ A.slots) :
    match a q.start with
    | some x => Denotes A.t (loadU64 (readAt 8 q.start f')) x
    | none => loadU64 (readAt 8 q.start f') = loadU64 (readAt 8 q.start f) := by
  rw [hs.slot q hq]
  cases hx : a q.start with
  | some x => exact ha.told _ x hx
  | none => rw [ha.untold _ hx, h.slot q hq]

/-- **What the callers are told, in bytes.** After fair calls no precondition was broken, and a slot
holds the address of the entry last asked for through it, null if there is none, or what it held
before the calls if nothing was. -/
theorem told_run (calls : List Call) (hc : ∀ c ∈ calls, A.Slotted c ∧ c.Fair A.t)
    (h : A.Holds f m) :
    (run (Refinement.step A.this.start) ⟨f, [], []⟩ calls).violations = [] ∧
      ∀ q ∈ A.slots,
        let held := loadU64 (readAt 8 q.start
          (run (Refinement.step A.this.start) ⟨f, [], []⟩ calls).memory)
        match run (tell (A.guidsAt f)) (fun _ => none) calls q.start with
        | some x => Denotes A.t held x
        | none => held = loadU64 (readAt 8 q.start f) := by
  rw [h.guidsAt_eq]
  have hstep (s : FlatState) (a : Answers) (c : Call)
      (hR : ∃ s', A.Corresponds s s' ∧ Represents A.t m s' a) (hc : A.Slotted c ∧ c.Fair A.t) :
      ∃ s', A.Corresponds (Refinement.step A.this.start s c) s' ∧
        Represents A.t m s' (tell (guids A.t m) a c) := by
    obtain ⟨s', hs, ha⟩ := hR
    exact ⟨_, corresponds_step hs hc.1, represents_step A.t ha hc.2⟩
  have h0 : ∃ s', A.Corresponds ⟨f, [], []⟩ s' ∧ Represents A.t m s' fun _ => none :=
    ⟨⟨m, [], []⟩, ⟨h, rfl, rfl⟩, represents_start A.t⟩
  obtain ⟨s', hs, ha⟩ := run_sim hstep calls _ _ h0 (allowed_of_mem calls _ hc)
  exact ⟨hs.violations.trans ha.defined, fun q hq => h.slot_told hs.memory ha hq⟩

/-! ### Calls that are not fair -/

/-- **What a slot holds after any calls** through the slots, fair or not: what it held before, null, the
address of an entry or the address past the last one. -/
theorem run_slot (calls : List Call) (hc : ∀ c ∈ calls, A.Slotted c) (h : A.Holds f m) :
    ∀ q ∈ A.slots,
      let held := loadU64 (readAt 8 q.start
        (run (Refinement.step A.this.start) ⟨f, [], []⟩ calls).memory)
      held = loadU64 (readAt 8 q.start f) ∨ Stored A.t held := by
  intro q hq
  have hr := holds_run calls hc h
  show loadU64 (readAt 8 q.start _) = _ ∨ Stored A.t (loadU64 (readAt 8 q.start _))
  rw [hr.slot q hq, h.slot q hq]
  exact run_slotAt A.t calls ⟨m, [], []⟩ q.start

/-- **No call disturbs a later one**: after any calls through the slots, fair or not, a call returns and
stores what it would have as the first, and breaks the same preconditions. -/
theorem exec_after_run (calls : List Call) (hc : ∀ c ∈ calls, A.Slotted c) (h : A.Holds f m) {c : Call}
    (hs : A.Slotted c) :
    let f' := (run (Refinement.step A.this.start) ⟨f, [], []⟩ calls).memory
    (Refinement.exec A.this.start c f').value = (Refinement.exec A.this.start c f).value ∧
      (Refinement.exec A.this.start c f').violations =
        (Refinement.exec A.this.start c f).violations ∧
      (c.entry ≠ nullptr →
        loadU64 (readAt 8 c.entry (Refinement.exec A.this.start c f').memory) =
          loadU64 (readAt 8 c.entry (Refinement.exec A.this.start c f).memory)) := by
  intro f'
  have hr := holds_run calls hc h
  have hx := exec_sim h hs
  have hx' := exec_sim hr hs
  obtain ⟨hv, hb, hp⟩ := exec_congr A.t c (run_tableAt A.t calls ⟨m, [], []⟩)
  refine ⟨?_, ?_, fun hne => ?_⟩
  · exact hx'.value.trans (hv.trans hx.value.symm)
  · exact hx'.violations.trans (hb.trans hx.violations.symm)
  · obtain ⟨q, hq, he⟩ := hs.exists_slot hne
    rw [← he] at hp ⊢
    exact (hx'.memory.slot q hq).trans ((hp (he ▸ hne)).trans (hx.memory.slot q hq).symm)

/-! ### A table with one entry -/

/-- The system table at `0x1000`, its one entry at `0x3000`, a slot at `0x2000`. -/
def oneEntry : Arrangement where
  t := ⟨1, 0x3000, by decide, by decide⟩
  this := ⟨0x1000, by decide⟩
  slots := {q | q.start = 0x2000}
  slot_this q hq := by
    have hs : q.start = 0x2000 := hq
    unfold Place.Apart
    rw [hs]
    decide
  slot_tables q hq := by
    have hs : q.start = 0x2000 := hq
    unfold Place.Apart
    rw [hs]
    decide
  slot_slot _ hq _ hr := Or.inl (Place.ext (Eq.trans hq (Eq.symm hr)))

/-- All bytes zero but the number of entries and the address of the array. -/
def oneEntryBytes : Flat := fun a => if a = 0x1068 then 1 else if a = 0x1071 then 0x30 else 0

theorem holds_oneEntry : oneEntry.Holds oneEntryBytes Memory.zero := by
  refine ⟨by decide, by decide, fun p hp => ?_, fun q hq => ?_⟩
  · have hel : oneEntry.t.configurationTables.elements = [0x3000] := by decide
    rw [hel] at hp
    obtain rfl := List.mem_singleton.mp hp
    have hg : guidAt 0x3000 oneEntryBytes = ⟨Vector.replicate 16 0⟩ := by decide
    have ht : loadU64 (readAt 8 0x3010 oneEntryBytes) = nullptr := by decide
    show ConfigurationTable.mk (guidAt 0x3000 oneEntryBytes)
      (loadU64 (readAt 8 0x3010 oneEntryBytes)) = _
    rw [hg, ht]
    rfl
  · have hs : q.start = 0x2000 := hq
    rw [hs]
    decide

/-- Look for the GUID of the entry. -/
def findZero : Call := .find ⟨Vector.replicate 16 0⟩ 0x2000

theorem slotted_findZero : oneEntry.Slotted findZero := ⟨⟨0x2000, by decide⟩, rfl, rfl⟩

theorem corresponds_run_one :
    oneEntry.Corresponds (run (Refinement.step 0x1000) ⟨oneEntryBytes, [], []⟩ [findZero])
      (run (Session.step oneEntry.t) ⟨Memory.zero, [], []⟩ [findZero]) :=
  corresponds_run [findZero] (fun _ hc => List.mem_singleton.mp hc ▸ slotted_findZero)
    ⟨holds_oneEntry, rfl, rfl⟩

/-- The slot was told entry 0. -/
theorem told_run_one :
    (run (Refinement.step 0x1000) ⟨oneEntryBytes, [], []⟩ [findZero]).violations = [] ∧
      Denotes oneEntry.t (loadU64 (readAt 8 0x2000
        (run (Refinement.step 0x1000) ⟨oneEntryBytes, [], []⟩ [findZero]).memory)) (some 0) := by
  obtain ⟨hv, hs⟩ := told_run [findZero] (fun _ hc => List.mem_singleton.mp hc ▸
    ⟨slotted_findZero, show (0x2000 : Pointer) ≠ nullptr by decide⟩) holds_oneEntry
  exact ⟨hv, hs ⟨0x2000, by decide⟩ rfl⟩

/-- Ask for the entry past the only one. -/
def getPast : Call := .get 1 0x2000

theorem slotted_getPast : oneEntry.Slotted getPast := Or.inr ⟨⟨0x2000, by decide⟩, rfl, rfl⟩

theorem run_slot_one :
    let held := loadU64 (readAt 8 0x2000
      (run (Refinement.step 0x1000) ⟨oneEntryBytes, [], []⟩ [getPast]).memory)
    held = loadU64 (readAt 8 0x2000 oneEntryBytes) ∨ Stored oneEntry.t held :=
  run_slot [getPast] (fun _ hc => List.mem_singleton.mp hc ▸ slotted_getPast) holds_oneEntry
    ⟨0x2000, by decide⟩ rfl

/-- The entry is looked for after the one past it was asked for. -/
theorem exec_after_run_one :
    let f' := (run (Refinement.step oneEntry.this.start) ⟨oneEntryBytes, [], []⟩ [getPast]).memory
    loadU64 (readAt 8 findZero.entry (Refinement.exec oneEntry.this.start findZero f').memory) =
      loadU64 (readAt 8 findZero.entry
        (Refinement.exec oneEntry.this.start findZero oneEntryBytes).memory) := by
  obtain ⟨-, -, hp⟩ := exec_after_run [getPast]
    (fun _ hc => List.mem_singleton.mp hc ▸ slotted_getPast) holds_oneEntry slotted_findZero
  exact hp (show (0x2000 : Pointer) ≠ nullptr by decide)

end Arrangement

end MuchCoolEfi.Configuration.Refinement
