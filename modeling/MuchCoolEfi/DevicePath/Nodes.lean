import MuchCoolEfi.Core.Guids
import MuchCoolEfi.Cxx.Chain
import MuchCoolEfi.Cxx.FlatMemory

/-! # All device path nodes

Every class of nodes is derived from `DevicePathProtocol`, some from one another, and all are packed.
`NodeClass` lists them, `levels` says what members each adds to its base class.

There is no padding in any of them, so the accessors tell the objects of a class apart exactly if they
read all members that have bytes (`lookAlike_eq_iff`).

A node in memory is an object of a class only if it has the room: nothing compares its length with the
class it is cast to. The accessors stay inside the node exactly if the length counts as many bytes as
they need (`accessors_inside_iff`). -/

namespace MuchCoolEfi.DevicePath.Nodes

open MuchCoolEfi.Cxx.Storage MuchCoolEfi.Cxx.Layout MuchCoolEfi.Cxx.LittleEndian
open MuchCoolEfi.Cxx.Contiguous MuchCoolEfi.Cxx.Parts MuchCoolEfi.Cxx.Record
open MuchCoolEfi.Cxx.Chain MuchCoolEfi.Cxx.FlatMemory MuchCoolEfi.Core.Guids

/-! ### The classes -/

/-- `class DevicePathProtocol`: `type_`, `subtype_` and `length_`. -/
def protocolClass : ClassType := ⟨pack1, [.uint8, .uint8, .uint16]⟩

/-- The classes derived from `DevicePathProtocol`. -/
inductive NodeClass where
  | pciDevicePath | pcCardDevicePath | memoryMappedDevicePath | vendorDevicePath
  | controllerDevicePath | baseboardManagementControllerDevicePath
  | acpiDevicePath | expandedAcpiDevicePath | acpiAdrDevicePath | nvdimmDevicePath
  | atapiDevicePath | scsiDevicePath | fibreChannelDevicePath | fibreChannelExDevicePath
  | firewireDevicePath | usbDevicePath | sataDevicePath | usbWWIDDevicePath
  | deviceLogicalUnitDevicePath | usbClassDevicePath | i2ODevicePath | macAddressDevicePath
  | ipv4DevicePath | ipv6DevicePath | vlanDevicePath | infiniBandDevicePath | uartDevicePath
  | vendorMessagingDevicePath | uartFlowControlMessagingDevicePath | sasDevicePath
  | sasExDevicePath | iScsiDevicePath | nvmExpressDevicePath | uriDevicePath | ufsDevicePath
  | secureDigitalDevicePath | bluetoothDevicePath | wirelessDevicePath | emmcDevicePath
  | bluetoothLEDevicePath | dnsDevicePath | nvdimmNamespacePath | restServiceDevicePath
  | vendorRestServiceDevicePath | nvmeOverFabricDevicePath | hardDriveDevicePath
  | cdRomDevicePath | vendorMediaDevicePath | filePathDevicePath | mediaProtocolDevicePath
  | piwgFirmwareFileDevicePath | piwgFirmwareVolumeDevicePath | ramDiskDevicePath
  | biosBootSpecificationDevicePath
deriving DecidableEq

/-- A member that is a GUID. -/
def guid : MemberType := .object guidLayout

/-- A member that is a `std::array` of bytes, or a class or union of nothing else. -/
def bytes (len : ℕ) : MemberType := .object (array len uint8)

/-- A member `T x[]`, which adds no byte to the class. -/
def flexible (t : TypeLayout) : MemberType := .object (array 0 t)

namespace NodeClass

/-- The members of a class and of its base classes below `DevicePathProtocol`, its own first. -/
def levels : NodeClass → Levels
  | pciDevicePath => [[.uint8, .uint8]]
  | pcCardDevicePath => [[.uint8]]
  | memoryMappedDevicePath => [[.uint32, .pointer, .pointer]]
  | vendorDevicePath => [[guid]]
  | controllerDevicePath => [[.uint32]]
  | baseboardManagementControllerDevicePath => [[.uint8, .pointer]]
  | acpiDevicePath => [[.uint32, .uint32]]
  | expandedAcpiDevicePath => [[.uint32], [.uint32, .uint32]]
  | acpiAdrDevicePath => [[.uint32, flexible uint32]]
  | nvdimmDevicePath => [[.uint32]]
  | atapiDevicePath => [[.bool, .bool, .uint16]]
  | scsiDevicePath => [[.uint16, .uint16]]
  | fibreChannelDevicePath => [[.uint32, .uint64, .uint64]]
  | fibreChannelExDevicePath => [[.uint32, bytes 8, bytes 8]]
  | firewireDevicePath => [[.uint32, .uint64]]
  | usbDevicePath => [[.uint8, .uint8]]
  | sataDevicePath => [[.uint16, .uint16, .uint16]]
  | usbWWIDDevicePath => [[.uint16, .uint16, .uint16, flexible uint16]]
  | deviceLogicalUnitDevicePath => [[.uint8]]
  | usbClassDevicePath => [[.uint16, .uint16, .uint8, .uint8, .uint8]]
  | i2ODevicePath => [[.uint32]]
  | macAddressDevicePath => [[bytes 32, .uint8]]
  | ipv4DevicePath =>
    [[bytes 4, bytes 4, .uint16, .uint16, .uint16, .bool, bytes 4, .uint32]]
  | ipv6DevicePath =>
    [[bytes 16, bytes 16, .uint16, .uint16, .uint16, .uint8, .uint8, bytes 16]]
  | vlanDevicePath => [[.uint16]]
  | infiniBandDevicePath => [[.uint32, guid, .uint64, .uint64, .uint64]]
  | uartDevicePath => [[.uint32, .uint64, .uint8, .uint8, .uint8]]
  | vendorMessagingDevicePath => [[guid]]
  | uartFlowControlMessagingDevicePath => [[guid, .uint32]]
  | sasDevicePath => [[guid, .uint32, .uint64, .uint64, .uint16, .uint16]]
  | sasExDevicePath => [[bytes 8, .uint64, bytes 8, .uint16, .uint16]]
  | iScsiDevicePath => [[.uint16, .uint16, bytes 8, .uint16, flexible uint8]]
  | nvmExpressDevicePath => [[.uint32, .uint64]]
  | uriDevicePath => [[flexible uint8]]
  | ufsDevicePath => [[.uint8, .uint8]]
  | secureDigitalDevicePath => [[.uint8]]
  | bluetoothDevicePath => [[bytes 6]]
  | wirelessDevicePath => [[bytes 32]]
  | emmcDevicePath => [[.uint8]]
  | bluetoothLEDevicePath => [[bytes 6, .uint8]]
  | dnsDevicePath => [[.bool, flexible uint8]]
  | nvdimmNamespacePath => [[guid]]
  | restServiceDevicePath => [[.uint8, .uint8]]
  | vendorRestServiceDevicePath => [[guid, flexible uint8], [.uint8, .uint8]]
  | nvmeOverFabricDevicePath => [[.uint8, guid, flexible uint8]]
  | hardDriveDevicePath => [[.uint32, .uint64, .uint64, guid, .uint8, .uint8]]
  | cdRomDevicePath => [[.uint32, .uint64, .uint64]]
  | vendorMediaDevicePath => [[guid, flexible uint8]]
  | filePathDevicePath => [[flexible uint16]]
  | mediaProtocolDevicePath => [[guid]]
  | piwgFirmwareFileDevicePath => [[]]
  | piwgFirmwareVolumeDevicePath => [[]]
  | ramDiskDevicePath => [[.pointer, .pointer, guid, .uint16]]
  | biosBootSpecificationDevicePath => [[.uint16, .uint16, flexible uint8]]

variable (c : NodeClass)

/-- The class, with the base classes before its own members. -/
abbrev cls : ClassType := derived protocolClass c.levels

/-- The bytes of an object of the class. -/
abbrev Object := Bytes c.cls.size

/-- A member of the class or of a base class. -/
abbrev Member := Position protocolClass c.levels

/-- All members, as parts of the object. -/
abbrev members : PartsOf c.cls.size c.Member := parts protocolClass c.levels

/-- `sizeof`, in numbers. -/
def sizeInBytes : NodeClass → ℕ
  | uriDevicePath | filePathDevicePath | piwgFirmwareFileDevicePath
  | piwgFirmwareVolumeDevicePath => 4
  | pcCardDevicePath | deviceLogicalUnitDevicePath | secureDigitalDevicePath | emmcDevicePath
  | dnsDevicePath => 5
  | pciDevicePath | usbDevicePath | vlanDevicePath | ufsDevicePath | restServiceDevicePath => 6
  | controllerDevicePath | acpiAdrDevicePath | nvdimmDevicePath | atapiDevicePath | scsiDevicePath
  | i2ODevicePath | biosBootSpecificationDevicePath => 8
  | sataDevicePath | usbWWIDDevicePath | bluetoothDevicePath => 10
  | usbClassDevicePath | bluetoothLEDevicePath => 11
  | acpiDevicePath => 12
  | baseboardManagementControllerDevicePath => 13
  | expandedAcpiDevicePath | firewireDevicePath | nvmExpressDevicePath => 16
  | iScsiDevicePath => 18
  | uartDevicePath => 19
  | vendorDevicePath | vendorMessagingDevicePath | nvdimmNamespacePath | vendorMediaDevicePath
  | mediaProtocolDevicePath => 20
  | nvmeOverFabricDevicePath => 21
  | vendorRestServiceDevicePath => 22
  | memoryMappedDevicePath | fibreChannelDevicePath | fibreChannelExDevicePath
  | uartFlowControlMessagingDevicePath | cdRomDevicePath => 24
  | ipv4DevicePath => 27
  | sasExDevicePath => 32
  | wirelessDevicePath => 36
  | macAddressDevicePath => 37
  | ramDiskDevicePath => 38
  | hardDriveDevicePath => 42
  | sasDevicePath => 44
  | infiniBandDevicePath => 48
  | ipv6DevicePath => 60

theorem size_eq : c.cls.size = c.sizeInBytes := by
  cases c <;> decide

theorem noPadding (b : Fin c.cls.size) : ¬ c.members.Padding b :=
  noPadding_of_pack1 rfl c.levels b

end NodeClass

/-! ### Accessors -/

variable {c : NodeClass}

namespace DevicePathProtocol

def type (s : protocolClass.Object) : UInt8 := protocolClass.parts.read s ⟨0, by decide⟩
def subtype (s : protocolClass.Object) : UInt8 := protocolClass.parts.read s ⟨1, by decide⟩
def length (s : protocolClass.Object) : UInt16 := protocolClass.parts.read s ⟨2, by decide⟩

end DevicePathProtocol

/-- The base class subobject that the accessors of `DevicePathProtocol` are called on. -/
def header (s : c.Object) : protocolClass.Object := load (rootField c.levels) s

/-- An accessor of a class: the member it reads, and what it makes of the value. -/
structure Accessor (c : NodeClass) where
  member : c.Member
  Result : Type
  result : (c.members.type member).Value → Result
  injective : Function.Injective result

/-- What the accessor returns. -/
def Accessor.call (a : Accessor c) (s : c.Object) : a.Result := a.result (c.members.read s a.member)

/-- An accessor that returns the member. -/
def Accessor.get (member : c.Member) : Accessor c :=
  ⟨member, (c.members.type member).Value, id, Function.injective_id⟩

namespace PciDevicePath
def function : Accessor .pciDevicePath := .get (.own ⟨0, by decide⟩)
def device : Accessor .pciDevicePath := .get (.own ⟨1, by decide⟩)
end PciDevicePath

namespace PcCardDevicePath
def function : Accessor .pcCardDevicePath := .get (.own ⟨0, by decide⟩)
end PcCardDevicePath

namespace MemoryMappedDevicePath
def memoryType : Accessor .memoryMappedDevicePath := .get (.own ⟨0, by decide⟩)
def startAddr : Accessor .memoryMappedDevicePath := .get (.own ⟨1, by decide⟩)
def endAddr : Accessor .memoryMappedDevicePath := .get (.own ⟨2, by decide⟩)
end MemoryMappedDevicePath

namespace VendorDevicePath
def vendorGuid : Accessor .vendorDevicePath := .get (.own ⟨0, by decide⟩)
end VendorDevicePath

namespace ControllerDevicePath
def controllerNumber : Accessor .controllerDevicePath := .get (.own ⟨0, by decide⟩)
end ControllerDevicePath

namespace BaseboardManagementControllerDevicePath
def interfaceType : Accessor .baseboardManagementControllerDevicePath := .get (.own ⟨0, by decide⟩)
def baseAddr : Accessor .baseboardManagementControllerDevicePath := .get (.own ⟨1, by decide⟩)
end BaseboardManagementControllerDevicePath

namespace AcpiDevicePath
def hid : Accessor .acpiDevicePath := .get (.own ⟨0, by decide⟩)
def uid : Accessor .acpiDevicePath := .get (.own ⟨1, by decide⟩)
end AcpiDevicePath

namespace ExpandedAcpiDevicePath
def hid : Accessor .expandedAcpiDevicePath := .get (.inherited AcpiDevicePath.hid.member)
def uid : Accessor .expandedAcpiDevicePath := .get (.inherited AcpiDevicePath.uid.member)
def cid : Accessor .expandedAcpiDevicePath := .get (.own ⟨0, by decide⟩)
end ExpandedAcpiDevicePath

namespace AcpiAdrDevicePath
def adr : Accessor .acpiAdrDevicePath := .get (.own ⟨0, by decide⟩)
end AcpiAdrDevicePath

namespace NVDIMMDevicePath
def handle : Accessor .nvdimmDevicePath := .get (.own ⟨0, by decide⟩)
end NVDIMMDevicePath

namespace AtapiDevicePath
/-- `!secondary_`. -/
def primary : Accessor .atapiDevicePath :=
  ⟨.own ⟨0, Nat.succ_pos _⟩, Bool, Bool.not, fun _ _ => Bool.not_inj⟩
/-- `!slave_`. -/
def master : Accessor .atapiDevicePath :=
  ⟨.own ⟨1, Nat.one_lt_succ_succ _⟩, Bool, Bool.not, fun _ _ => Bool.not_inj⟩
def logicalUnitNumber : Accessor .atapiDevicePath := .get (.own ⟨2, by decide⟩)
end AtapiDevicePath

namespace ScsiDevicePath
def targetId : Accessor .scsiDevicePath := .get (.own ⟨0, by decide⟩)
def logicalUnitNumber : Accessor .scsiDevicePath := .get (.own ⟨1, by decide⟩)
end ScsiDevicePath

namespace FibreChannelDevicePath
def worldWideName : Accessor .fibreChannelDevicePath := .get (.own ⟨1, by decide⟩)
def logicalUnitNumber : Accessor .fibreChannelDevicePath := .get (.own ⟨2, by decide⟩)
end FibreChannelDevicePath

namespace FibreChannelExDevicePath
def worldWideName : Accessor .fibreChannelExDevicePath := .get (.own ⟨1, by decide⟩)
def logicalUnitNumber : Accessor .fibreChannelExDevicePath := .get (.own ⟨2, by decide⟩)
end FibreChannelExDevicePath

namespace FirewireDevicePath
def guid : Accessor .firewireDevicePath := .get (.own ⟨1, by decide⟩)
end FirewireDevicePath

namespace UsbDevicePath
def port : Accessor .usbDevicePath := .get (.own ⟨0, by decide⟩)
def interface : Accessor .usbDevicePath := .get (.own ⟨1, by decide⟩)
end UsbDevicePath

namespace SataDevicePath
def hbaPort : Accessor .sataDevicePath := .get (.own ⟨0, by decide⟩)
def portMultiplierPort : Accessor .sataDevicePath := .get (.own ⟨1, by decide⟩)
def logicalUnitNumber : Accessor .sataDevicePath := .get (.own ⟨2, by decide⟩)
end SataDevicePath

/-- The accessors of a class that are not those of `DevicePathProtocol`. -/
def accessors : (c : NodeClass) → List (Accessor c)
  | .pciDevicePath => [PciDevicePath.function, PciDevicePath.device]
  | .pcCardDevicePath => [PcCardDevicePath.function]
  | .memoryMappedDevicePath => [MemoryMappedDevicePath.memoryType,
    MemoryMappedDevicePath.startAddr, MemoryMappedDevicePath.endAddr]
  | .vendorDevicePath => [VendorDevicePath.vendorGuid]
  | .controllerDevicePath => [ControllerDevicePath.controllerNumber]
  | .baseboardManagementControllerDevicePath =>
    [BaseboardManagementControllerDevicePath.interfaceType,
      BaseboardManagementControllerDevicePath.baseAddr]
  | .acpiDevicePath => [AcpiDevicePath.hid, AcpiDevicePath.uid]
  | .expandedAcpiDevicePath => [ExpandedAcpiDevicePath.hid, ExpandedAcpiDevicePath.uid,
    ExpandedAcpiDevicePath.cid]
  | .acpiAdrDevicePath => [AcpiAdrDevicePath.adr]
  | .nvdimmDevicePath => [NVDIMMDevicePath.handle]
  | .atapiDevicePath => [AtapiDevicePath.primary, AtapiDevicePath.master,
    AtapiDevicePath.logicalUnitNumber]
  | .scsiDevicePath => [ScsiDevicePath.targetId, ScsiDevicePath.logicalUnitNumber]
  | .fibreChannelDevicePath => [FibreChannelDevicePath.worldWideName,
    FibreChannelDevicePath.logicalUnitNumber]
  | .fibreChannelExDevicePath => [FibreChannelExDevicePath.worldWideName,
    FibreChannelExDevicePath.logicalUnitNumber]
  | .firewireDevicePath => [FirewireDevicePath.guid]
  | .usbDevicePath => [UsbDevicePath.port, UsbDevicePath.interface]
  | .sataDevicePath => [SataDevicePath.hbaPort, SataDevicePath.portMultiplierPort,
    SataDevicePath.logicalUnitNumber]
  | _ => []

/-- The members that an accessor reads, those of `DevicePathProtocol` among them. -/
def Accessible (i : c.Member) : Prop := i.IsDeclared ∨ ∃ a ∈ accessors c, a.member = i

instance : DecidablePred (Accessible (c := c)) := fun _ => inferInstanceAs (Decidable (_ ∨ _))

/-- All accessors return the same for both objects. -/
structure LookAlike (s t : c.Object) : Prop where
  type : DevicePathProtocol.type (header s) = DevicePathProtocol.type (header t)
  subtype : DevicePathProtocol.subtype (header s) = DevicePathProtocol.subtype (header t)
  length : DevicePathProtocol.length (header s) = DevicePathProtocol.length (header t)
  accessors : ∀ a ∈ accessors c, a.call s = a.call t

/-- `DevicePathProtocol` has accessors for all it has. -/
theorem header_eq_iff {s t : protocolClass.Object} :
    s = t ↔ DevicePathProtocol.type s = DevicePathProtocol.type t ∧
      DevicePathProtocol.subtype s = DevicePathProtocol.subtype t ∧
      DevicePathProtocol.length s = DevicePathProtocol.length t := by
  constructor
  · rintro rfl
    exact ⟨rfl, rfl, rfl⟩
  · rintro ⟨h0, h1, h2⟩
    have hp := ClassType.noPadding_iff_gapless.mpr (ClassType.gapless_of_pack1 (c := protocolClass) rfl)
    refine PartsOf.ext_parts (P := protocolClass.parts) (fun i => ?_) fun b hb => absurd hb (hp b)
    match i with
    | ⟨0, _⟩ => exact loadU8_inj.mp h0
    | ⟨1, _⟩ => exact loadU8_inj.mp h1
    | ⟨2, _⟩ => exact loadU16_inj.mp h2

theorem valid_of_isDeclared : ∀ {ls : Levels} (i : Position protocolClass ls), i.IsDeclared →
    ∀ b, i.type.Valid b
  | _, .declared ⟨0, _⟩, _, _ => trivial
  | _, .declared ⟨1, _⟩, _, _ => trivial
  | _, .declared ⟨2, _⟩, _, _ => trivial
  | _, .inherited i, h, b => valid_of_isDeclared i h b

theorem lookAlike_iff {s t : c.Object} :
    LookAlike s t ↔ ∀ i ∈ {i | Accessible i}, c.members.read s i = c.members.read t i := by
  have hp := ClassType.noPadding_iff_gapless.mpr (ClassType.gapless_of_pack1 (c := protocolClass) rfl)
  have hroot := load_rootField_eq_iff hp (s := s) (t := t)
  constructor
  · rintro ⟨h0, h1, h2, ha⟩ i (hd | ⟨a, hm, rfl⟩)
    · have hh : header s = header t := header_eq_iff.mpr ⟨h0, h1, h2⟩
      exact congrArg i.type.decode (hroot.mp hh i hd)
    · exact a.injective (ha a hm)
  · intro h
    have hh : header s = header t := by
      refine hroot.mpr fun i hd => ?_
      have hv := valid_of_isDeclared i hd
      exact (MemberType.decode_inj (hv _) (hv _)).mp (h i (Or.inl hd))
    refine ⟨?_, ?_, ?_, fun a hm => ?_⟩
    · rw [hh]
    · rw [hh]
    · rw [hh]
    · exact congrArg a.result (h a.member (Or.inr ⟨a, hm, rfl⟩))

/-- The classes whose objects can be told apart by accessors: those where the only members without
one are arrays of no size. -/
def NodeClass.Observable : NodeClass → Bool
  | .pciDevicePath | .pcCardDevicePath | .memoryMappedDevicePath | .vendorDevicePath
  | .controllerDevicePath | .baseboardManagementControllerDevicePath | .acpiDevicePath
  | .expandedAcpiDevicePath | .acpiAdrDevicePath | .nvdimmDevicePath | .atapiDevicePath
  | .scsiDevicePath | .usbDevicePath | .sataDevicePath | .uriDevicePath | .filePathDevicePath
  | .piwgFirmwareFileDevicePath | .piwgFirmwareVolumeDevicePath => true
  | _ => false

theorem observable_iff (c : NodeClass) :
    (∀ i : c.Member, 0 < (c.members.type i).layout.size → Accessible i) ↔ c.Observable := by
  have hall : (∀ i ∈ c.members.all, 0 < (c.members.type i).layout.size → Accessible i) ↔
      c.Observable := by
    cases c <;> decide
  rw [← hall]
  exact ⟨fun h i _ => h i, fun h i => h i (c.members.mem_all i)⟩

/-- **Which nodes their accessors tell apart**: valid objects for which all accessors return the same
are equal exactly if the class is one of the 18 observable ones. -/
theorem lookAlike_eq_iff (c : NodeClass) :
    (∀ s t : c.Object, c.members.Valid s → c.members.Valid t → LookAlike s t → s = t) ↔
      c.Observable := by
  have hdet : c.members.Determines {i | Accessible i} ↔ c.Observable :=
    (PartsOf.determines_iff c.noPadding).trans (observable_iff c)
  rw [← hdet]
  constructor
  · intro h s t hs ht hr
    exact h s t hs ht (lookAlike_iff.mpr hr)
  · intro h s t hs ht hl
    exact h s t hs ht (lookAlike_iff.mp hl)

/-! ### Nodes in memory -/

/-- How many bytes the accessors of the class need, those of `DevicePathProtocol` among them. -/
def NodeClass.needed : NodeClass → ℕ
  | .pcCardDevicePath => 5
  | .pciDevicePath | .usbDevicePath => 6
  | .controllerDevicePath | .acpiAdrDevicePath | .nvdimmDevicePath | .atapiDevicePath
  | .scsiDevicePath => 8
  | .sataDevicePath => 10
  | .acpiDevicePath => 12
  | .baseboardManagementControllerDevicePath => 13
  | .expandedAcpiDevicePath | .firewireDevicePath => 16
  | .vendorDevicePath => 20
  | .memoryMappedDevicePath | .fibreChannelDevicePath | .fibreChannelExDevicePath => 24
  | _ => 4

/-- One member with an accessor ends there, and none later. -/
theorem needed_iff (c : NodeClass) (k : ℕ) : (∀ i ∈ {i : c.Member | Accessible i},
    0 < (c.members.type i).layout.size →
      (c.members.field i).offset + (c.members.type i).layout.size ≤ k) ↔ c.needed ≤ k := by
  have hle : ∀ i ∈ c.members.all, Accessible i →
      (c.members.field i).offset + (c.members.type i).layout.size ≤ c.needed := by
    cases c <;> decide
  have hex : ∃ i ∈ c.members.all, Accessible i ∧ 0 < (c.members.type i).layout.size ∧
      (c.members.field i).offset + (c.members.type i).layout.size = c.needed := by
    cases c <;> decide
  constructor
  · intro h
    obtain ⟨i, -, ha, hpos, he⟩ := hex
    exact he ▸ h i ha hpos
  · intro h i hi _
    exact (hle i (c.members.mem_all i) hi).trans h

/-- What a pointer to a node gives when it is cast to a class. -/
def objectAt (c : NodeClass) (p : Pointer) (m : Flat) : c.Object := readAt c.cls.size p m

/-- `length()` of the node at `p`. -/
def lengthAt (p : Pointer) (m : Flat) : UInt16 :=
  DevicePathProtocol.length (readAt protocolClass.size p m)

/-- **A cast keeps the header**, whatever the class. -/
theorem header_objectAt (c : NodeClass) (p : Pointer) (m : Flat) :
    header (objectAt c p m) = readAt protocolClass.size p m := by
  have h := readAt_add p (@rootField protocolClass c.levels) m
  have h0 : p + UInt64.ofNat 0 = p := UInt64.add_zero p
  rw [rootField_offset, h0] at h
  exact h.symm

/-- **When the accessors stay inside the node**: what they return for a node cast to a class is decided
by the bytes that its length counts, exactly if it counts as many as the class needs. -/
theorem accessors_inside_iff (c : NodeClass) (p : Pointer) (m : Flat) :
    (∀ m' : Flat, (∀ j < (lengthAt p m).toNat, m' (p + UInt64.ofNat j) = m (p + UInt64.ofNat j)) →
      LookAlike (objectAt c p m') (objectAt c p m)) ↔ c.needed ≤ (lengthAt p m).toNat := by
  have hn : c.cls.size < 2 ^ 64 := by
    rw [c.size_eq]
    cases c <;> decide
  rw [← needed_iff, ← read_decided_iff c.members hn]
  exact forall₂_congr fun m' _ => lookAlike_iff

end MuchCoolEfi.DevicePath.Nodes
