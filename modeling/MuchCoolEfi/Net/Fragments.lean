import MuchCoolEfi.Cxx.Trailing

/-! # Fragments of packets

`ManagedNetworkTransmitData` and `Ipv4ReceiveData` end in a table of fragments, declared with one and
counted by another member, of 16 bits in the one and of 32 in the other. `fragments()` gives out the
table as a span of as many fragments as are counted.

An object of the declared size has room for one, a larger allocation for as many more as fit into
what it adds (`fragments_inside_iff`); nothing compares the count with it. Where they fit, a client
may assign fragments to one another through the span (`fragments_run`). -/

namespace MuchCoolEfi.Net.Fragments

open MuchCoolEfi.Cxx.Storage MuchCoolEfi.Cxx.Layout MuchCoolEfi.Cxx.Contiguous
open MuchCoolEfi.Cxx.Run MuchCoolEfi.Cxx.Record MuchCoolEfi.Cxx.FlatMemory
open MuchCoolEfi.Cxx.Trailing MuchCoolEfi.Cxx.Trailing.ArrayAtEnd

/-! ### The classes -/

/-- `class ManagedNetworkFragmentData` and `class Ipv4FragmentData`: `length_` and `buffer_`. -/
def fragmentData : ClassType := ⟨none, [.uint32, .pointer]⟩

/-- `struct Time`, with the two paddings it declares; `timezone` is signed. -/
def time : ClassType :=
  ⟨none, [.uint16, .uint8, .uint8, .uint8, .uint8, .uint8, .uint8, .uint32, .uint16, .uint8, .uint8]⟩

/-- `class ManagedNetworkTransmitData`: the two addresses, `protocol_type_`, `data_length_`,
`header_length_`, `fragment_count_` and `fragment_table_[1]`. -/
def managedNetworkTransmitData : ClassType :=
  ⟨none, [.pointer, .pointer, .uint16, .uint32, .uint16, .uint16,
    .object (array 1 fragmentData.layout)]⟩

/-- `class Ipv4ReceiveData`: `timestamp_`, `recycle_signal_`, `header_length_`, `header_`,
`options_length_`, `options_`, `data_length_`, `fragment_count_` and `fragment_table_[1]`. -/
def ipv4ReceiveData : ClassType :=
  ⟨none, [.object time.layout, .pointer, .uint32, .pointer, .uint32, .pointer, .uint32, .uint32,
    .object (array 1 fragmentData.layout)]⟩

/-- `ManagedNetworkTransmitData::fragments()`. -/
def transmitFragments : ArrayAtEnd where
  cls := managedNetworkTransmitData
  element := fragmentData
  table := ⟨6, by decide⟩
  count := ⟨5, by decide⟩
  toSize count := UInt16.toUInt64 count
  count_lt := by decide
  element_pos := by decide

/-- `Ipv4ReceiveData::fragments()`. -/
def receiveFragments : ArrayAtEnd where
  cls := ipv4ReceiveData
  element := fragmentData
  table := ⟨8, by decide⟩
  count := ⟨7, by decide⟩
  toSize count := UInt32.toUInt64 count
  count_lt := by decide
  element_pos := by decide

/-- The two classes with fragments. -/
inductive Packet where
  | transmit | receive

def Packet.fragments : Packet → ArrayAtEnd
  | .transmit => transmitFragments
  | .receive => receiveFragments

/-- The bytes before the table. -/
def Packet.header : Packet → ℕ
  | .transmit => 32
  | .receive => 64

theorem offset_eq (k : Packet) : k.fragments.offset = k.header := by
  cases k <;> rfl

theorem element_size (k : Packet) : k.fragments.element.size = 16 := by
  cases k <;> rfl

/-- **The declared class ends with its one fragment.** -/
theorem declared_size (k : Packet) : k.fragments.cls.size = k.header + 16 := by
  cases k <;> rfl

/-! ### Where the fragments lie -/

section Inside

variable (k : Packet) (extra : ℕ) (p : Place (k.fragments.cls.size + extra)) (m : Flat)

/-- `fragment_count_`. -/
def count : ℕ := (k.fragments.size p.start m).toNat

/-- An allocation with `extra` bytes after the declared class has room for one fragment and as many
more as fit into these. -/
theorem room_iff : Room k.fragments p m ↔ count k extra p m ≤ 1 + extra / 16 := by
  have hd := declared_size k
  unfold Room count
  rw [offset_eq, element_size]
  omega

/-- **When the fragments lie in the allocation**: exactly if no more are counted than fit after the
members before the table. -/
theorem fragments_inside_iff :
    (∀ a, ElementByte k.fragments p.start m a → p.Covers a) ↔ count k extra p m ≤ 1 + extra / 16 := by
  rw [← room_iff]
  refine covers_iff p m ?_
  rw [offset_eq, declared_size]
  omega

/-- **Fragments assigned to one another through the span**, any number of times, as far as they lie
in the allocation: the next `fragments()` gives out the same span, the fragments are those of a list
after the same assignments, and the members before the table and all else keep their bytes. -/
theorem fragments_run (h : count k extra p m ≤ 1 + extra / 16) (as : List (UInt64 × UInt64))
    (has : ∀ a ∈ as, k.fragments.InRange p.start m a) :
    let after := run (k.fragments.assign p.start) m as
    k.fragments.contents p.start after = run listAssign (k.fragments.contents p.start m) as ∧
      count k extra p after = count k extra p m ∧
      readAt k.header p.start after = readAt k.header p.start m ∧
      ∀ b, ¬ p.Covers b → after b = m b := by
  obtain ⟨hc, hs, hh, hb⟩ := contents_run ((room_iff k extra p m).mpr h) as has
  refine ⟨hc, congrArg UInt64.toNat hs, ?_, hb⟩
  rw [← offset_eq k]
  exact hh

end Inside

/-- Two fragments counted, the second of 7 bytes. All else is zero. -/
def twoFragments : Flat := fun a => if a = 0x101a then 2 else if a = 0x1030 then 7 else 0

/-- With 16 bytes more than declared, the first may be assigned the second. -/
theorem fragments_run_two :
    let second := transmitFragments.valueAt 0x1030 twoFragments
    second ⟨0, by decide⟩ = (7 : UInt32) ∧
      transmitFragments.contents 0x1000 (run (transmitFragments.assign 0x1000) twoFragments [(0, 1)]) =
        [second, second] := by
  have hr : transmitFragments.InRange 0x1000 twoFragments (0, 1) := by
    constructor <;> decide
  have hc : transmitFragments.contents 0x1000 twoFragments =
      [transmitFragments.valueAt 0x1020 twoFragments, transmitFragments.valueAt 0x1030 twoFragments] :=
    rfl
  have h := fragments_run .transmit 16 ⟨0x1000, by decide⟩ twoFragments (by decide)
    [(0, 1)] fun _ ha => List.mem_singleton.mp ha ▸ hr
  exact ⟨rfl, h.1.trans (congrArg (run listAssign · [(0, 1)]) hc)⟩

end MuchCoolEfi.Net.Fragments
