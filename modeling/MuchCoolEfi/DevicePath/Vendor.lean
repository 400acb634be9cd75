import MuchCoolEfi.Core.Guids
import MuchCoolEfi.Cxx.Regions

/-! # Vendor device path nodes

A device path node is a packed header of 4 bytes (type, subtype, and the length of the node with its
header), followed by what the type says; in a `VendorDevicePath`, a GUID and then a payload. The
payload is given out as `data()`, the address after the class, and `data_length()`, the length less
the size of the class.

A `Node` is a node somewhere in a buffer that holds all of it. The payload stays inside the node
exactly if the length field counts the whole class (`payload_exact`); nothing checks this, and below
the subtraction wraps. -/

namespace MuchCoolEfi.DevicePath.Vendor

open MuchCoolEfi.Cxx.Storage MuchCoolEfi.Cxx.Layout MuchCoolEfi.Cxx.LittleEndian
open MuchCoolEfi.Cxx.Contiguous MuchCoolEfi.Cxx.Regions
open MuchCoolEfi.Core.Guids

/-! ### The packed classes -/

/-- `type_`, `subtype_` and `length_`. -/
def protocolMembers : List TypeLayout := [uint8, uint8, uint16]

/-- `class DevicePathProtocol`. -/
def devicePathProtocol : TypeLayout := record pack1 protocolMembers

/-- The base class, and `vendor_guid_`. -/
def vendorMembers : List TypeLayout := [devicePathProtocol, guidLayout]

/-- `class VendorDevicePath`. -/
def vendorDevicePath : TypeLayout := record pack1 vendorMembers

theorem devicePathProtocol_size : devicePathProtocol.size = 4 := packed_size protocolMembers

/-- **The class is its header and a GUID**, without padding. -/
theorem vendorDevicePath_size : vendorDevicePath.size = 20 := by
  have h := packed_size vendorMembers
  have hs : (vendorMembers.map TypeLayout.size).sum = devicePathProtocol.size + guidLayout.size := rfl
  rw [hs, devicePathProtocol_size, guidLayout_size] at h
  exact h

def typeField : Field 4 1 := member pack1 protocolMembers ⟨0, by decide⟩
def subtypeField : Field 4 1 := member pack1 protocolMembers ⟨1, by decide⟩
def lengthField : Field 4 2 := member pack1 protocolMembers ⟨2, by decide⟩
def headerField : Field 20 4 := member pack1 vendorMembers ⟨0, by decide⟩
def vendorGuidField : Field 20 16 := member pack1 vendorMembers ⟨1, by decide⟩

/-- The GUID begins where the header ends. -/
theorem vendorGuidField_offset : vendorGuidField.offset = devicePathProtocol.size :=
  packed_offset vendorMembers (i := 1) (by simp [vendorMembers])

/-- **The GUID is the last member**: the class ends where it ends. -/
theorem vendorGuidField_end :
    vendorGuidField.offset + guidLayout.size = vendorDevicePath.size := by
  rw [vendorGuidField_offset, devicePathProtocol_size, guidLayout_size, vendorDevicePath_size]

/-! ### Nodes in a buffer -/

/-- What the header in four bytes says about the length of the node. -/
def lengthOf (header : Bytes 4) : UInt16 := loadU16 (load lengthField header)

/-- A node in a buffer: where the buffer lies, and where in it the node begins. The header and all
bytes the length field counts are in the buffer. -/
structure Node where
  size : ℕ
  buffer : Bytes size
  base : Pointer
  in_space : base.toNat + size < 2 ^ 64
  offset : ℕ
  header_fits : offset + 4 ≤ size
  fits : offset + (lengthOf (load ⟨offset, header_fits⟩ buffer)).toNat ≤ size

namespace Node

variable (node : Node)

def header : Bytes 4 := load ⟨node.offset, node.header_fits⟩ node.buffer

/-- `this`. -/
def self : Pointer := node.base + UInt64.ofNat node.offset

def type : UInt8 := loadU8 (load typeField node.header)

def subtype : UInt8 := loadU8 (load subtypeField node.header)

def length : UInt16 := lengthOf node.header

/-- `data()`, which is `&this[1]`. -/
def data : Pointer := node.self + UInt64.ofNat vendorDevicePath.size

/-- `data_length()`; the 16-bit length is converted to the 64-bit type of `sizeof`. -/
def dataLength : UInt64 := node.length.toUInt64 - UInt64.ofNat vendorDevicePath.size

/-- The bytes of the buffer. -/
def whole : Region := ⟨node.base, UInt64.ofNat node.size⟩

/-- The bytes of the node. -/
def own : Region := ⟨node.self, node.length.toUInt64⟩

/-- The bytes given out as the payload. -/
def payload : Region := ⟨node.data, node.dataLength⟩

/-! ### Where the payload lies -/

theorem toNat_self : node.self.toNat = node.base.toNat + node.offset := by
  have hs := node.in_space
  have hf := node.header_fits
  show (node.base + UInt64.ofNat node.offset).toNat = _
  rw [UInt64.toNat_add, UInt64.toNat_ofNat', Nat.mod_eq_of_lt (a := node.offset) (by omega),
    Nat.mod_eq_of_lt (by omega)]

theorem toNat_own_size : node.own.size.toNat = node.length.toNat := UInt16.toNat_toUInt64 _

theorem toNat_whole_size : node.whole.size.toNat = node.size := by
  have hs := node.in_space
  show (UInt64.ofNat node.size).toNat = _
  rw [UInt64.toNat_ofNat', Nat.mod_eq_of_lt (by omega)]

theorem own_inside_whole : node.own.Inside node.whole := by
  have hfits : node.offset + node.length.toNat ≤ node.size := node.fits
  have hself := node.toNat_self
  unfold Region.Inside Region.endOf
  rw [toNat_own_size, toNat_whole_size]
  show node.base.toNat ≤ node.self.toNat ∧ node.self.toNat + _ ≤ node.base.toNat + _
  omega

theorem own_inSpace : node.own.InSpace := by
  have hin := node.own_inside_whole.2
  have hs := node.in_space
  unfold Region.InSpace
  unfold Region.endOf at hin ⊢
  rw [toNat_whole_size] at hin
  exact Nat.lt_of_le_of_lt hin hs

/-- The payload is what the class leaves of the node. -/
theorem payload_eq_drop : node.payload = node.own.drop (UInt64.ofNat vendorDevicePath.size) := rfl

theorem class_le_size_iff :
    UInt64.ofNat vendorDevicePath.size ≤ node.own.size ↔ vendorDevicePath.size ≤ node.length.toNat := by
  rw [UInt64.le_iff_toNat_le, toNat_own_size, vendorDevicePath_size]
  rfl

/-- **The payload stays inside the node exactly if the length counts the class.** -/
theorem payload_inside_iff :
    node.payload.Inside node.own ↔ vendorDevicePath.size ≤ node.length.toNat := by
  rw [payload_eq_drop, Region.drop_inside_iff node.own_inSpace, class_le_size_iff]

/-- **The length of the payload wraps exactly if the length does not count the class.** -/
theorem dataLength_iff :
    node.dataLength.toNat + vendorDevicePath.size = node.length.toNat ↔
      vendorDevicePath.size ≤ node.length.toNat := by
  have h := Region.toNat_size_drop (r := node.own) (k := UInt64.ofNat vendorDevicePath.size)
  rw [class_le_size_iff, toNat_own_size] at h
  exact h

theorem dataLength_of_lt (h : node.length.toNat < vendorDevicePath.size) :
    node.dataLength.toNat = 2 ^ 64 - vendorDevicePath.size + node.length.toNat := by
  have hk : (UInt64.ofNat vendorDevicePath.size).toNat = 20 := rfl
  show (node.length.toUInt64 - UInt64.ofNat vendorDevicePath.size).toNat = _
  rw [UInt64.toNat_sub, hk, UInt16.toNat_toUInt64]
  rw [vendorDevicePath_size] at h ⊢
  omega

/-- The payload follows the GUID and ends with the node. -/
theorem payload_partition (h : vendorDevicePath.size ≤ node.length.toNat) :
    node.data.toNat = node.self.toNat + (vendorGuidField.offset + guidLayout.size) ∧
      node.payload.endOf = node.own.endOf := by
  have hle := node.class_le_size_iff.mpr h
  refine ⟨?_, ?_⟩
  · rw [vendorGuidField_end]
    exact Region.toNat_start_drop node.own_inSpace hle
  · rw [payload_eq_drop]
    exact Region.end_drop node.own_inSpace hle

/-- What a reader of the payload relies on. -/
structure PayloadStays : Prop where
  inNode : node.payload.Inside node.own
  inBuffer : node.payload.Inside node.whole
  partition : vendorDevicePath.size ≤ node.length.toNat →
    node.data.toNat = node.self.toNat + (vendorGuidField.offset + guidLayout.size) ∧
      node.payload.endOf = node.own.endOf
  noWrap : node.dataLength.toNat + vendorDevicePath.size = node.length.toNat

/-- **When the payload stays inside the node**: exactly if the length field counts the whole class.
This alone decides both whether the range lies in the node and whether the length wraps; where it
fails, the length given out is at least `2 ^ 64 - 20`. -/
theorem payload_exact :
    (node.PayloadStays ↔ vendorDevicePath.size ≤ node.length.toNat) ∧
    (node.payload.Inside node.own ↔ vendorDevicePath.size ≤ node.length.toNat) ∧
    (node.dataLength.toNat + vendorDevicePath.size = node.length.toNat ↔
      vendorDevicePath.size ≤ node.length.toNat) ∧
    (vendorDevicePath.size ≤ node.length.toNat →
      node.data.toNat = node.self.toNat + (vendorGuidField.offset + guidLayout.size) ∧
        node.payload.endOf = node.own.endOf) ∧
    (node.length.toNat < vendorDevicePath.size →
      node.dataLength.toNat = 2 ^ 64 - vendorDevicePath.size + node.length.toNat) := by
  refine ⟨⟨fun h => node.payload_inside_iff.mp h.inNode, fun h => ?_⟩, node.payload_inside_iff,
    node.dataLength_iff, node.payload_partition, node.dataLength_of_lt⟩
  have hin := node.payload_inside_iff.mpr h
  exact ⟨hin, hin.trans node.own_inside_whole, node.payload_partition, node.dataLength_iff.mpr h⟩

end Node

/-- A node of 4 bytes at the start of 24: the payload is said to have `2 ^ 64 - 16` bytes. -/
theorem payload_fails_header :
    ¬ Node.PayloadStays ⟨24, #v[1, 4, 4, 0, 0, 0, 0, 0, 0, 0, 0, 0, 0, 0, 0, 0, 0, 0, 0, 0, 0, 0, 0, 0],
        0x1000, by decide, 0, by decide, by decide⟩ ∧
      Node.dataLength ⟨24, #v[1, 4, 4, 0, 0, 0, 0, 0, 0, 0, 0, 0, 0, 0, 0, 0, 0, 0, 0, 0, 0, 0, 0, 0],
        0x1000, by decide, 0, by decide, by decide⟩ = 0xfffffffffffffff0 := by
  refine ⟨fun h => ?_, by decide⟩
  have hle := (Node.payload_inside_iff _).mp h.inNode
  exact absurd hle (by decide)

end MuchCoolEfi.DevicePath.Vendor
