import Mathlib.Data.List.Induction
import MuchCoolEfi.Core.Guids
import MuchCoolEfi.Core.StatusCode
import MuchCoolEfi.Cxx.Chain
import MuchCoolEfi.Cxx.Provenance
import MuchCoolEfi.Net.Addresses

/-! # Objects a client makes

The classes whose objects a client constructs itself, and hands to the firmware: GUIDs, network
addresses, tokens and cache entries of the DNS protocol. A constructor initialises members, in storage
that held something before. What becomes of the bytes it does not initialise is left to the compiler,
which may set any of them; and so is what becomes of the padding when a cache entry is copied. An
`Operation` says what it does with each byte.

A client constructs, copies and assigns such objects in one memory, in any order, and everything else
that writes to memory is in between. In the end every byte is either fixed or a byte of the memory
before all this (`depends_iff_held`), which the firmware then gets to see. What a constructor leaves
is known (`construct_depends_iff`), and whether an object anywhere holds such a byte can be told from
the single operations (`sealed_iff_careful`). -/

namespace MuchCoolEfi.Firmware.Objects

open MuchCoolEfi.Cxx.Storage MuchCoolEfi.Cxx.Layout MuchCoolEfi.Cxx.Parts MuchCoolEfi.Cxx.Record
open MuchCoolEfi.Cxx.Chain MuchCoolEfi.Cxx.LittleEndian MuchCoolEfi.Cxx.Run
open MuchCoolEfi.Cxx.Contiguous MuchCoolEfi.Cxx.FlatMemory MuchCoolEfi.Cxx.Provenance
open MuchCoolEfi.Cxx.Provenance.Pattern (Piece)
open MuchCoolEfi.Core MuchCoolEfi.Net
open MuchCoolEfi.Core.StatusCode (Status Enumerator)
open MuchCoolEfi.Core.Guids (Fields ofBytes ofFields fields_cover)
open MuchCoolEfi.Net.Addresses (Mac MacAddress Ipv4Address Ipv6Address macField bytesField)

/-! ### Classes of the DNS protocol -/

/-- The classes of tokens: `Dns4HostToAddrCompletionToken`, `Dns4AddrToHostCompletionToken` and
`Dns4GeneralLookupCompletionToken`. -/
inductive TokenClass where
  | hostToAddr | addrToHost | generalLookup

namespace Dns4CompletionToken

/-- The members of the union `data_`: a pointer for each class of tokens. -/
def dataMembers : List TypeLayout := [uint64, uint64, uint64]

/-- `event_`, `status_`, `retry_count_`, `retry_interval_` and `data_`. -/
def cls : ClassType := ⟨none, [.pointer, .uint64, .uint32, .uint32, .object (union dataMembers)]⟩

/-- The three classes add no members. -/
abbrev levels : Levels := [[]]

/-- An object of one of them. -/
abbrev object : ClassType := derived cls levels

/-- A member of the base class. -/
abbrev inherited (i : cls.Member) : Position cls levels := .inherited (.declared i)

def eventMember : Position cls levels := inherited ⟨0, by decide⟩
def statusMember : Position cls levels := inherited ⟨1, by decide⟩
def retryCountMember : Position cls levels := inherited ⟨2, by decide⟩
def retryIntervalMember : Position cls levels := inherited ⟨3, by decide⟩
def dataMember : Position cls levels := inherited ⟨4, by decide⟩

/-- The initialisers of the members, in their order. -/
def initializers (count interval : UInt32) : List (parts cls levels).Assignment :=
  [⟨eventMember, nullptr⟩, ⟨statusMember, Enumerator.success.status.value⟩,
    ⟨retryCountMember, count⟩, ⟨retryIntervalMember, interval⟩,
    ⟨dataMember, (Vector.replicate 8 0 : Bytes 8)⟩]

/-- The constructor of each class. -/
def construct (count interval : UInt32) (held : Bytes object.size) : Bytes object.size :=
  run (parts cls levels).step held (initializers count interval)

/-- The members of a token are all it has. -/
theorem covered : ∀ b : Fin object.size,
    ¬ ∀ i ∈ [eventMember, statusMember, retryCountMember, retryIntervalMember, dataMember],
      ¬ ((parts cls levels).field i).Mem b := by
  decide

section Accessors

variable (this : Pointer) (m : Flat)

def members : (parts cls levels).Values := (parts cls levels).read (readAt object.size this m)

def event : Pointer := members this m eventMember
def status : Status := ⟨members this m statusMember⟩
def retryCount : UInt32 := members this m retryCountMember
def retryInterval : UInt32 := members this m retryIntervalMember

/-- The member of the union that the class uses. -/
def unionField : TokenClass → Field 8 8
  | .hostToAddr => unionMember dataMembers ⟨0, by decide⟩
  | .addrToHost => unionMember dataMembers ⟨1, by decide⟩
  | .generalLookup => unionMember dataMembers ⟨2, by decide⟩

/-- `data()` of each class. -/
def data (k : TokenClass) : Pointer := loadU64 (load (unionField k) (members this m dataMember))

end Accessors

end Dns4CompletionToken

namespace Dns4CacheEntry

/-- `hostname_`, `ip_address_` and `timeout_`. -/
def cls : ClassType := ⟨none, [.pointer, .pointer, .uint32]⟩

def hostnameMember : cls.Member := ⟨0, by decide⟩
def ipAddressMember : cls.Member := ⟨1, by decide⟩
def timeoutMember : cls.Member := ⟨2, by decide⟩

def initializers (hostname address : Pointer) (timeout : UInt32) : List cls.parts.Assignment :=
  [⟨hostnameMember, hostname⟩, ⟨ipAddressMember, address⟩, ⟨timeoutMember, timeout⟩]

/-- The constructor. -/
def construct (hostname address : Pointer) (timeout : UInt32) (held : cls.Object) : cls.Object :=
  run cls.parts.step held (initializers hostname address timeout)

def hostname (this : Pointer) (m : Flat) : Pointer := memberAt hostnameMember this m
def ipAddress (this : Pointer) (m : Flat) : Pointer := memberAt ipAddressMember this m
def timeout (this : Pointer) (m : Flat) : UInt32 := memberAt timeoutMember this m

/-- A cache entry ends with padding. -/
theorem padding_iff : ∀ b : Fin cls.size, cls.parts.Padding b ↔ 20 ≤ b.val := by
  unfold PartsOf.Padding
  decide

end Dns4CacheEntry

/-! ### Constructing -/

/-- A constructor and its arguments. -/
inductive Construction where
  | guidOfBytes (bytes : Bytes 16)
  | guidOfFields (f : Fields)
  | macAddress
  | macAddressOfBytes (bytes : Bytes 32)
  | macAddressOfMac (mac : Mac)
  | ipv4AddressOfBytes (bytes : Bytes 4)
  | ipv4AddressOfData (data1 data2 data3 data4 : UInt8)
  | ipv6AddressOfBytes (bytes : Bytes 16)
  | dns4CompletionToken (k : TokenClass) (retryCount retryInterval : UInt32)
  | dns4CacheEntry (hostname address : Pointer) (timeout : UInt32)

namespace Construction

/-- The size of the object. -/
def size : Construction → ℕ
  | guidOfBytes _ | guidOfFields _ => 16
  | macAddress | macAddressOfBytes _ | macAddressOfMac _ => 32
  | ipv4AddressOfBytes _ | ipv4AddressOfData .. => 4
  | ipv6AddressOfBytes _ => 16
  | dns4CompletionToken .. => Dns4CompletionToken.object.size
  | dns4CacheEntry .. => Dns4CacheEntry.cls.size

/-- The object, in storage that held `held`. -/
def build : (c : Construction) → Bytes c.size → Bytes c.size
  | guidOfBytes bytes, held => (ofBytes held bytes).bytes
  | guidOfFields f, held => (ofFields held f).bytes
  | macAddress, held => (MacAddress.ofNothing held).data
  | macAddressOfBytes bytes, held => (MacAddress.ofBytes held bytes).data
  | macAddressOfMac mac, held => (MacAddress.ofMac held mac).data
  | ipv4AddressOfBytes bytes, held => (Ipv4Address.ofBytes held bytes).bytes
  | ipv4AddressOfData a b c d, held => (Ipv4Address.ofData held a b c d).bytes
  | ipv6AddressOfBytes bytes, held => (Ipv6Address.ofBytes held bytes).bytes
  | dns4CompletionToken _ n i, held => Dns4CompletionToken.construct n i held
  | dns4CacheEntry n a t, held => Dns4CacheEntry.construct n a t held

/-- What the constructor stores: the members it initialises, in their order. -/
def pieces : (c : Construction) → List (Piece c.size)
  | guidOfBytes bytes => [.whole bytes]
  | guidOfFields f => [⟨_, Guids.data1Field, encode 4 f.data1.toNat⟩,
    ⟨_, Guids.data2Field, encode 2 f.data2.toNat⟩, ⟨_, Guids.data3Field, encode 2 f.data3.toNat⟩,
    ⟨_, Guids.data4Field, f.data4⟩]
  | macAddress => [.whole (.replicate 32 0)]
  | macAddressOfBytes bytes => [.whole bytes]
  | macAddressOfMac mac => [⟨_, macField, mac⟩]
  | ipv4AddressOfBytes bytes => [.whole bytes]
  | ipv4AddressOfData a b c d => [⟨_, Addresses.data1Field, .singleton a⟩,
    ⟨_, Addresses.data2Field, .singleton b⟩, ⟨_, Addresses.data3Field, .singleton c⟩,
    ⟨_, Addresses.data4Field, .singleton d⟩]
  | ipv6AddressOfBytes bytes => [.whole bytes]
  | dns4CompletionToken _ n i => (Dns4CompletionToken.initializers n i).map Piece.ofAssignment
  | dns4CacheEntry n a t => (Dns4CacheEntry.initializers n a t).map Piece.ofAssignment

/-- **Every constructor** stores its pieces. -/
theorem run_pieces : ∀ (c : Construction) (held : Bytes c.size),
    run (fun s p => store p.field p.bytes s) held c.pieces = c.build held
  | guidOfBytes _, _ | guidOfFields _, _ | macAddress, _ | macAddressOfBytes _, _
  | macAddressOfMac _, _ | ipv4AddressOfBytes _, _ | ipv4AddressOfData .., _
  | ipv6AddressOfBytes _, _ | dns4CompletionToken .., _ | dns4CacheEntry .., _ => rfl

/-- The bytes the constructor does not initialise: the tail after a `Mac`, and the padding at the end
of a cache entry. -/
def Leaves : Construction → ℕ → Prop
  | macAddressOfMac _, i => 6 ≤ i
  | dns4CacheEntry .., i => 20 ≤ i
  | _, _ => False

theorem leaves_iff : ∀ (c : Construction) (i : Fin c.size),
    (∀ p ∈ c.pieces, ¬ p.field.Mem i) ↔ c.Leaves i
  | guidOfBytes _, i | macAddress, i | macAddressOfBytes _, i | ipv4AddressOfBytes _, i
  | ipv6AddressOfBytes _, i =>
    iff_of_false (fun h => h _ List.mem_cons_self (Field.mem_whole i)) id
  | guidOfFields f, i => by
    simp only [pieces, List.forall_mem_cons]
    refine iff_of_false (fun ⟨h1, h2, h3, h4, _⟩ => ?_) id
    rcases fields_cover i.isLt with hm | hm | hm | hm
    · exact h1 hm
    · exact h2 hm
    · exact h3 hm
    · exact h4 hm
  | macAddressOfMac mac, i => by
    simp only [pieces, List.forall_mem_cons]
    show (¬ (0 ≤ i.val ∧ i.val < 0 + 6) ∧ _) ↔ 6 ≤ i.val
    simp
  | ipv4AddressOfData a b c d, i => by
    have hc : ∀ i : Fin 4, Addresses.data1Field.Mem i ∨ Addresses.data2Field.Mem i ∨
        Addresses.data3Field.Mem i ∨ Addresses.data4Field.Mem i := by decide
    simp only [pieces, List.forall_mem_cons]
    refine iff_of_false (fun ⟨h1, h2, h3, h4, _⟩ => ?_) id
    rcases hc i with hm | hm | hm | hm
    · exact h1 hm
    · exact h2 hm
    · exact h3 hm
    · exact h4 hm
  | dns4CompletionToken _ n r, i => by
    simp only [pieces, List.forall_mem_map]
    refine iff_of_false (fun h => Dns4CompletionToken.covered i fun j hj => ?_) id
    obtain ⟨a, ha, rfl⟩ := List.mem_map.mp
      (show j ∈ (Dns4CompletionToken.initializers n r).map Sigma.fst from hj)
    exact h a ha
  | dns4CacheEntry n a t, i => by
    simp only [pieces, List.forall_mem_map]
    refine Iff.trans ⟨fun h j => ?_, fun h x _ => h x.1⟩ (Dns4CacheEntry.padding_iff i)
    obtain ⟨x, hx, rfl⟩ := List.mem_map.mp
      (show j ∈ (Dns4CacheEntry.initializers n a t).map Sigma.fst from List.mem_finRange j)
    exact h x hx

end Construction

/-! ### Copying -/

/-- A class whose objects can be copied, which tokens cannot. -/
inductive Copyable where
  | guid | macAddress | ipv4Address | ipv6Address | dns4CacheEntry

namespace Copyable

def size : Copyable → ℕ
  | guid => 16
  | macAddress => 32
  | ipv4Address => 4
  | ipv6Address => 16
  | dns4CacheEntry => Dns4CacheEntry.cls.size

/-- The object afterwards. Copying a union copies its bytes, copying a cache entry its members. -/
def copied : (k : Copyable) → Bytes k.size → Bytes k.size → Bytes k.size
  | guid, held, other => store Field.whole other held
  | macAddress, held, other => (MacAddress.copied held ⟨other⟩).data
  | ipv4Address, held, other => store Field.whole other held
  | ipv6Address, held, other => store Field.whole other held
  | dns4CacheEntry, held, other => Pattern.copyParts Dns4CacheEntry.cls.parts held other

open Pattern in
/-- What becomes of each byte. -/
def pattern : (k : Copyable) → Pattern k.size
  | guid | macAddress | ipv4Address | ipv6Address => copying Field.whole
  | dns4CacheEntry => copyingParts Dns4CacheEntry.cls.parts

theorem blend_copying_whole {n : ℕ} (held other : Bytes n) :
    (Pattern.copying Field.whole).blend held other = store Field.whole other held := by
  rw [Pattern.blend_copying, load_whole]

/-- **Copying** does to the bytes what the pattern says. -/
theorem blend_pattern : ∀ (k : Copyable) (held other : Bytes k.size),
    k.pattern.blend held other = k.copied held other
  | guid, held, other | macAddress, held, other | ipv4Address, held, other
  | ipv6Address, held, other => blend_copying_whole held other
  | dns4CacheEntry, _, _ => Pattern.blend_copyingParts

/-- The bytes that belong to no member: the padding of a cache entry. -/
def Leaves : Copyable → ℕ → Prop
  | dns4CacheEntry, i => 20 ≤ i
  | _, _ => False

theorem pattern_eq_kept_iff : ∀ (k : Copyable) (i : Fin k.size),
    k.pattern i = .kept ↔ k.Leaves i
  | guid, i | macAddress, i | ipv4Address, i | ipv6Address, i =>
    iff_of_false (fun h => Pattern.copying_eq_kept_iff.mp h (Field.mem_whole i)) id
  | dns4CacheEntry, i => Pattern.copyingParts_eq_kept_iff.trans (Dns4CacheEntry.padding_iff i)

theorem pattern_ne_value (b : UInt8) : ∀ (k : Copyable) (i : Fin k.size), k.pattern i ≠ .value b
  | guid, _ | macAddress, _ | ipv4Address, _ | ipv6Address, _ => Pattern.copying_ne_value
  | dns4CacheEntry, _ => Pattern.copyingParts_ne_value

/-- All other bytes are copied. -/
theorem pattern_eq_copied_iff (k : Copyable) (i : Fin k.size) :
    k.pattern i = .copied ↔ ¬ k.Leaves i := by
  rw [← k.pattern_eq_kept_iff]
  rcases hi : k.pattern i with b | _ | _
  · exact absurd hi (k.pattern_ne_value b i)
  · simp
  · simp

end Copyable

/-! ### Operations of a client -/

/-- One thing done to the memory. -/
inductive Operation where
  /-- Something else writes to it. -/
  | write {n : ℕ} (p : Place n) (bytes : Bytes n)
  /-- Before the members are initialised, the compiler may `fill` any byte. -/
  | construct (c : Construction) (p : Place c.size) (fill : Fin c.size → Option UInt8)
  /-- `MacAddress::operator=(const Mac&)`. -/
  | assignMac (p : Place 32) (mac : Mac)
  /-- A copy constructor, a copy assignment or a parameter passed by value. Two objects share no byte,
  but an object may be assigned to itself. The `padding` is kept, copied or set, each byte on its own. -/
  | copy (k : Copyable) (p other : Place k.size) (distinct : p = other ∨ p.Apart other)
    (padding : Pattern k.size)

open Pattern in
def step (m : Flat) : Operation → Flat
  | .write p bytes => writeAt p.start bytes m
  | .construct c p fill =>
    let held := readAt c.size p.start m
    writeAt p.start (c.build ((filling fill).blend held held)) m
  | .assignMac p mac => writeAt p.start (MacAddress.assignMac ⟨readAt 32 p.start m⟩ mac).data m
  | .copy k p q _ padding =>
    let other := readAt k.size q.start m
    writeAt p.start (k.copied (padding.blend (readAt k.size p.start m) other) other) m

namespace Operation

/-- The size of the object. -/
def size : Operation → ℕ
  | @write n _ _ => n
  | construct c _ _ => c.size
  | assignMac _ _ => 32
  | copy k _ _ _ _ => k.size

/-- The object that changes. -/
def place : (o : Operation) → Place o.size
  | write p _ => p
  | construct _ p _ => p
  | assignMac p _ => p
  | copy _ p _ _ _ => p

/-- The object it is made from, if another. -/
def other : (o : Operation) → Place o.size
  | write p _ => p
  | construct _ p _ => p
  | assignMac p _ => p
  | copy _ _ q _ _ => q

open Pattern in
/-- What becomes of each byte of the object. -/
def pattern : (o : Operation) → Pattern o.size
  | write _ bytes => storingAll [.whole bytes]
  | construct c _ fill => (filling fill).andThen (storingAll c.pieces)
  | assignMac _ mac => storingAll [.whole (.replicate 32 0), ⟨_, macField, mac⟩]
  | copy k _ _ _ padding => padding.andThen k.pattern

/-- Where the bytes of the memory come from. -/
def transfer (o : Operation) : Transfer Pointer UInt8 := o.pattern.onto o.place o.other

/-- **Every operation moves bytes.** -/
theorem step_eq_apply (m : Flat) : ∀ o : Operation, step m o = o.transfer.apply m
  | write p bytes => by
    have h := @Pattern.blend_storingAll _ (readAt _ p.start m) (readAt _ p.start m) [.whole bytes]
    exact Pattern.writeAt_eq_apply (h.trans (store_whole _ _))
  | construct c p fill => by
    refine Pattern.writeAt_eq_apply ((Pattern.blend_andThen _ _).trans ?_)
    exact (Pattern.blend_storingAll c.pieces).trans (c.run_pieces _)
  | assignMac p mac => Pattern.writeAt_eq_apply (Pattern.blend_storingAll _)
  | copy k p q _ padding =>
    Pattern.writeAt_eq_apply ((Pattern.blend_andThen _ _).trans (k.blend_pattern _ _))

end Operation

/-! ### What is read back -/

/-- An operation writes to its object and nowhere else. -/
theorem step_eq_writeAt (m : Flat) : ∀ o : Operation,
    ∃ b : Bytes o.size, step m o = writeAt o.place.start b m
  | .write _ bytes => ⟨bytes, rfl⟩
  | .construct _ _ _ => ⟨_, rfl⟩
  | .assignMac _ _ => ⟨_, rfl⟩
  | .copy _ _ _ _ _ => ⟨_, rfl⟩

theorem readAt_run_of_apart {n : ℕ} {q : Place n} : ∀ (ops : List Operation) (m : Flat),
    (∀ o ∈ ops, q.Apart o.place) → readAt n q.start (run step m ops) = readAt n q.start m
  | [], _, _ => rfl
  | o :: ops, m, h => by
    obtain ⟨b, hb⟩ := step_eq_writeAt m o
    rw [run, readAt_run_of_apart ops _ fun o' ho => h o' (List.mem_cons_of_mem o ho), hb]
    exact readAt_writeAt_of_apart o.place b m (h o List.mem_cons_self)

/-- **An object stays what its constructor made of it** until something is written to it. -/
theorem readAt_construct_run (m : Flat) (c : Construction) (p : Place c.size)
    (fill : Fin c.size → Option UInt8) (ops : List Operation) (h : ∀ o ∈ ops, p.Apart o.place) :
    let held := readAt c.size p.start m
    readAt c.size p.start (run step m (.construct c p fill :: ops)) =
      c.build ((Pattern.filling fill).blend held held) :=
  (readAt_run_of_apart ops _ h).trans (readAt_writeAt_self p _ m)

/-- So does a cache entry. -/
theorem entry_run (m : Flat) (name address : Pointer) (t : UInt32)
    (p : Place Dns4CacheEntry.cls.size) (fill : Fin Dns4CacheEntry.cls.size → Option UInt8)
    (ops : List Operation) (h : ∀ o ∈ ops, p.Apart o.place) :
    let m' := run step m (.construct (.dns4CacheEntry name address t) p fill :: ops)
    Dns4CacheEntry.hostname p.start m' = name ∧ Dns4CacheEntry.ipAddress p.start m' = address ∧
      Dns4CacheEntry.timeout p.start m' = t := by
  intro m'
  have hb := readAt_construct_run m (.dns4CacheEntry name address t) p fill ops h
  have hr : Dns4CacheEntry.cls.parts.read (readAt Dns4CacheEntry.cls.size p.start m') =
      run PartsOf.update _ (Dns4CacheEntry.initializers name address t) :=
    (congrArg _ hb).trans (PartsOf.read_run _ _)
  unfold Dns4CacheEntry.hostname Dns4CacheEntry.ipAddress Dns4CacheEntry.timeout
  rw [memberAt_eq, memberAt_eq, memberAt_eq, hr]
  exact ⟨rfl, rfl, rfl⟩

section Token

open Dns4CompletionToken

theorem read_construct (count interval : UInt32) (held : Bytes object.size) :
    let v := (parts cls levels).read (Dns4CompletionToken.construct count interval held)
    v eventMember = nullptr ∧ v statusMember = Enumerator.success.status.value ∧
      v retryCountMember = count ∧ v retryIntervalMember = interval ∧
        v dataMember = (Vector.replicate 8 0 : Bytes 8) := by
  unfold Dns4CompletionToken.construct
  rw [PartsOf.read_run]
  exact ⟨rfl, rfl, rfl, rfl, rfl⟩

/-- **A token stays what it was made** until something is written to it, the same for all classes. -/
theorem token_run (m : Flat) (k : TokenClass) (count interval : UInt32) (p : Place object.size)
    (fill : Fin object.size → Option UInt8) (ops : List Operation)
    (h : ∀ o ∈ ops, p.Apart o.place) :
    let m' := run step m (.construct (.dns4CompletionToken k count interval) p fill :: ops)
    event p.start m' = nullptr ∧ status p.start m' = Enumerator.success.status ∧
      retryCount p.start m' = count ∧ retryInterval p.start m' = interval ∧
        ∀ k', data p.start m' k' = nullptr := by
  intro m'
  obtain ⟨held, hb⟩ : ∃ held, readAt object.size p.start m' =
      Dns4CompletionToken.construct count interval held :=
    ⟨_, readAt_construct_run m (.dns4CompletionToken k count interval) p fill ops h⟩
  obtain ⟨h1, h2, h3, h4, h5⟩ := read_construct count interval held
  rw [← hb] at h1 h2 h3 h4 h5
  refine ⟨h1, congrArg Status.mk h2, h3, h4, fun k' => ?_⟩
  unfold data members
  rw [h5]
  cases k' <;> decide

/-- A token, and something that is written behind it. -/
theorem token_run_write :
    let m' := run step (fun _ => 7) [.construct (.dns4CompletionToken .addrToHost 3 20)
      ⟨0x1000, by decide⟩ fun _ => none, .write ⟨0x1020, by decide⟩ (.replicate 8 1)]
    event 0x1000 m' = nullptr ∧ status 0x1000 m' = Enumerator.success.status ∧
      retryCount 0x1000 m' = 3 ∧ retryInterval 0x1000 m' = 20 ∧
        ∀ k', data 0x1000 m' k' = nullptr := by
  refine token_run _ _ _ _ _ _ _ fun o ho => ?_
  obtain rfl := List.mem_singleton.mp ho
  exact Or.inl (by decide)

end Token

/-! ### Histories -/

/-- What a byte holds in the end is not the same for all memories before. -/
def Depends (ops : List Operation) (a : Pointer) : Prop :=
  ∃ m m' : Flat, run step m ops a ≠ run step m' ops a

theorem run_eq_apply (ops : List Operation) (m : Flat) :
    run step m ops = (Transfer.ofRun Operation.transfer ops).apply m :=
  Transfer.run_eq_apply (fun m o => o.step_eq_apply m) ops m

theorem depends_iff_held {ops : List Operation} {a : Pointer} :
    Depends ops a ↔ ∃ a', Transfer.ofRun Operation.transfer ops a = .held a' := by
  have hb : Nontrivial UInt8 := ⟨0, 1, by decide⟩
  unfold Depends
  simp only [run_eq_apply]
  exact Transfer.depends_iff

/-- One more operation. -/
theorem depends_append_singleton {ops : List Operation} {o : Operation} {a : Pointer} :
    Depends (ops ++ [o]) a ↔ ∃ a', o.transfer a = .held a' ∧ Depends ops a' := by
  simp only [depends_iff_held, Transfer.ofRun_append_singleton]
  rcases h : o.transfer a with b | a'
  · simp [Transfer.andThen, h]
  · simp [Transfer.andThen, h]

theorem depends_append_of_not_covers {ops : List Operation} {o : Operation} {a : Pointer}
    (h : ¬ o.place.Covers a) : Depends (ops ++ [o]) a ↔ Depends ops a := by
  have ht : o.transfer a = .held a := Pattern.onto_of_not_covers h
  rw [depends_append_singleton, ht]
  constructor
  · rintro ⟨a', he, hd⟩
    cases he
    exact hd
  · exact fun hd => ⟨a, rfl, hd⟩

/-- A byte of the object just changed. -/
theorem depends_changed_iff (ops : List Operation) (o : Operation) (i : Fin o.size) :
    Depends (ops ++ [o]) (o.place.start + UInt64.ofNat i) ↔
      (o.pattern i = .kept ∧ Depends ops (o.place.start + UInt64.ofNat i)) ∨
        (o.pattern i = .copied ∧ Depends ops (o.other.start + UInt64.ofNat i)) := by
  have ht := Pattern.onto_start_add o.pattern o.place o.other i
  rw [depends_append_singleton]
  unfold Operation.transfer
  rw [ht]
  rcases h : o.pattern i with b | _ | _
  · simp
  · simp
  · simp

theorem construct_kept_iff (c : Construction) (fill : Fin c.size → Option UInt8) (i : Fin c.size) :
    (Pattern.filling fill).andThen (.storingAll c.pieces) i = .kept ↔ fill i = none ∧ c.Leaves i := by
  rw [Pattern.andThen_eq_kept_iff, Pattern.filling_eq_kept_iff, Pattern.storingAll_eq_kept_iff,
    c.leaves_iff]

theorem construct_ne_copied (c : Construction) (fill : Fin c.size → Option UInt8) (i : Fin c.size) :
    (Pattern.filling fill).andThen (.storingAll c.pieces) i ≠ .copied := by
  rw [ne_eq, Pattern.andThen_eq_copied_iff]
  rintro (h | h)
  · exact Pattern.storingAll_ne_copied h
  · exact Pattern.filling_ne_copied h.2

/-- **What a constructor leaves.** Whatever happened before, a byte of an object just constructed
depends on the memory exactly if the compiler does not set it, the constructor does not initialise it,
and it depended on the memory before. -/
theorem construct_depends_iff (ops : List Operation) (c : Construction) (p : Place c.size)
    (fill : Fin c.size → Option UInt8) (i : Fin c.size) :
    Depends (ops ++ [.construct c p fill]) (p.start + UInt64.ofNat i) ↔
      fill i = none ∧ c.Leaves i ∧ Depends ops (p.start + UInt64.ofNat i) := by
  refine (depends_changed_iff ops (.construct c p fill) i).trans ?_
  rw [← and_assoc, ← construct_kept_iff]
  exact or_iff_left fun h => construct_ne_copied c fill i h.1

/-! ### Objects that hold nothing else -/

/-- The byte belongs to an object that was changed. -/
def Touched (ops : List Operation) (a : Pointer) : Prop := ∃ o ∈ ops, o.place.Covers a

/-- No object holds a byte of the memory before. -/
def Sealed (ops : List Operation) : Prop := ∀ a, Touched ops a → ¬ Depends ops a

/-- The object keeps or copies the byte. -/
def Operation.Takes : Operation → Pointer → Prop
  | write _ _, _ | assignMac _ _, _ => False
  | construct c p fill, a =>
    ∃ i : Fin c.size, (fill i = none ∧ c.Leaves i) ∧ a = p.start + UInt64.ofNat i
  | copy k p q _ padding, a =>
    ∃ i : Fin k.size, ((k.Leaves i ∧ padding i = .kept) ∧ a = p.start + UInt64.ofNat i) ∨
      ((k.Leaves i → padding i = .copied) ∧ a = q.start + UInt64.ofNat i)

/-- What the operation takes belongs to objects made before. -/
def Careful (ops : List Operation) (o : Operation) : Prop := ∀ a, o.Takes a → Touched ops a

/-- What stores all of its object first takes nothing. -/
theorem not_takes_of_whole {n : ℕ} (p : Place n) (v : Bytes n) (ps : List (Piece n))
    (a : Pointer) : ¬ ∃ i : Fin n,
      (Pattern.storingAll (.whole v :: ps) i = .kept ∧ a = p.start + UInt64.ofNat i) ∨
        (Pattern.storingAll (.whole v :: ps) i = .copied ∧ a = p.start + UInt64.ofNat i) := by
  rintro ⟨i, h | h⟩
  · exact Pattern.storingAll_whole_ne_kept v ps i h.1
  · exact Pattern.storingAll_ne_copied h.1

theorem Operation.takes_iff_pattern : ∀ {o : Operation} {a : Pointer},
    o.Takes a ↔ ∃ i : Fin o.size, (o.pattern i = .kept ∧ a = o.place.start + UInt64.ofNat i) ∨
      (o.pattern i = .copied ∧ a = o.other.start + UInt64.ofNat i)
  | write p bytes, a => iff_of_false id (not_takes_of_whole p bytes _ a)
  | assignMac p mac, a => iff_of_false id (not_takes_of_whole p _ _ a)
  | construct c p fill, a => by
    refine exists_congr fun i => ?_
    rw [← construct_kept_iff]
    exact (or_iff_left fun h => construct_ne_copied c fill i h.1).symm
  | copy k p q _ padding, a => by
    refine exists_congr fun i => or_congr (and_congr_left' ?_) (and_congr_left' ?_)
    · rw [pattern, Pattern.andThen_eq_kept_iff, k.pattern_eq_kept_iff]
      exact and_comm
    · rw [pattern, Pattern.andThen_eq_copied_iff, k.pattern_eq_copied_iff, k.pattern_eq_kept_iff]
      by_cases h : k.Leaves i <;> simp [h]

/-- An object depends on nothing exactly if nothing that was taken does. -/
theorem independent_iff {ops : List Operation} {o : Operation} :
    (∀ i : Fin o.size, ¬ Depends (ops ++ [o]) (o.place.start + UInt64.ofNat i)) ↔
      ∀ a, o.Takes a → ¬ Depends ops a := by
  simp only [depends_changed_iff, Operation.takes_iff_pattern]
  constructor
  · rintro h a ⟨i, ⟨hk, rfl⟩ | ⟨hk, rfl⟩⟩ hd
    · exact h i (Or.inl ⟨hk, hd⟩)
    · exact h i (Or.inr ⟨hk, hd⟩)
  · rintro h i (⟨hk, hd⟩ | ⟨hk, hd⟩)
    · exact h _ ⟨i, Or.inl ⟨hk, rfl⟩⟩ hd
    · exact h _ ⟨i, Or.inr ⟨hk, rfl⟩⟩ hd

theorem touched_append_singleton {ops : List Operation} {o : Operation} {a : Pointer} :
    Touched (ops ++ [o]) a ↔ Touched ops a ∨ o.place.Covers a := by
  simp [Touched, or_and_right, exists_or]

/-- A byte of no object depends on the memory: it is still what it was. -/
theorem depends_of_not_touched {a : Pointer} : ∀ {ops : List Operation}, ¬ Touched ops a →
    Depends ops a := by
  intro ops
  induction ops using List.reverseRecOn with
  | nil => exact fun _ => ⟨fun _ => 0, fun _ => 1, (by decide : (0 : UInt8) ≠ 1)⟩
  | append_singleton ops o ih =>
    intro h
    rw [touched_append_singleton, not_or] at h
    exact (depends_append_of_not_covers h.2).mpr (ih h.1)

theorem Sealed.depends_iff {ops : List Operation} (h : Sealed ops) {a : Pointer} :
    ¬ Depends ops a ↔ Touched ops a := by
  constructor
  · intro hd
    by_contra ht
    exact hd (depends_of_not_touched ht)
  · exact h a

theorem Sealed.append_singleton_iff {ops : List Operation} {o : Operation} (h : Sealed ops) :
    Sealed (ops ++ [o]) ↔ Careful ops o := by
  have hc : Careful ops o ↔ ∀ i : Fin o.size,
      ¬ Depends (ops ++ [o]) (o.place.start + UInt64.ofNat i) := by
    rw [independent_iff]
    exact forall₂_congr fun a _ => h.depends_iff.symm
  rw [hc]
  constructor
  · intro hs i
    exact hs _ (touched_append_singleton.mpr (Or.inr (Place.covers_iff.mpr ⟨i, rfl⟩)))
  · intro hi a ha
    by_cases hp : o.place.Covers a
    · obtain ⟨i, rfl⟩ := Place.covers_iff.mp hp
      exact hi i
    · rw [depends_append_of_not_covers hp]
      exact h a ((touched_append_singleton.mp ha).resolve_right hp)

theorem sealed_nil : Sealed [] := by
  rintro a ⟨o, ho, -⟩
  exact absurd ho List.not_mem_nil

/-- **Whether objects hold bytes of the memory before** is seen from where the objects are: at no time
of a history does any object hold one exactly if all operations take bytes of objects made before. -/
theorem sealed_iff_careful (ops : List Operation) :
    (∀ before after, ops = before ++ after → Sealed before) ↔
      ∀ before o after, ops = before ++ o :: after → Careful before o := by
  constructor
  · intro h before o after he
    have hs : Sealed (before ++ [o]) := h (before ++ [o]) after (by rw [he, List.append_cons])
    exact (h before (o :: after) he).append_singleton_iff.mp hs
  · intro h before
    induction before using List.reverseRecOn with
    | nil => exact fun _ _ => sealed_nil
    | append_singleton before o ih =>
      intro after he
      rw [List.append_assoc] at he
      exact (ih _ he).append_singleton_iff.mpr (h before o after he)

end MuchCoolEfi.Firmware.Objects
