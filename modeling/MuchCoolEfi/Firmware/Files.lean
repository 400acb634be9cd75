import MuchCoolEfi.Cxx.Tables

/-! # File and debug protocols

Files, the disks and blocks below them, and debugging. Two methods take the arguments in another order
than the functions they call. -/

namespace MuchCoolEfi.Firmware.Files

open MuchCoolEfi.Cxx.Parts MuchCoolEfi.Cxx.Forwarding MuchCoolEfi.Cxx.Forwarding.ParamType
open MuchCoolEfi.Cxx.Forwarding.Arg MuchCoolEfi.Cxx.Tables

/-! ### Files -/

namespace LoadFileProtocol

inductive Slot where
  | loadFile
deriving DecidableEq

def order : List Slot := [.loadFile]

def entry : Slot → Entry
  | .loadFile => .function [reference, bool, pointer, pointer]

/-- `boot_policy` comes last, and is `true` unless given. -/
def loadFile : Method Slot where
  slot := .loadFile
  params := [reference, pointer, pointer, bool]
  args := [.param 0, .param 3, .param 1, .param 2]
  defaults := [.word 1]

def methods : List (Method Slot) := [loadFile]

def interface : Interface Slot where
  order := order
  mem_order s := by cases s; decide
  entry := entry
  passesThis := true
  methods := methods
  fits := by decide

end LoadFileProtocol

namespace LoadFile2Protocol

inductive Slot where
  | loadFile
deriving DecidableEq

def order : List Slot := [.loadFile]

def entry : Slot → Entry
  | .loadFile => .function [reference, bool, pointer, pointer]

def loadFile : Method Slot where
  slot := .loadFile
  params := [reference, pointer, pointer]
  args := [.param 0, flag false, .param 1, .param 2]

def methods : List (Method Slot) := [loadFile]

def interface : Interface Slot where
  order := order
  mem_order s := by cases s; decide
  entry := entry
  passesThis := true
  methods := methods
  fits := by decide

end LoadFile2Protocol

namespace SimpleFileSystemProtocol

inductive Slot where
  | revision | openVolume
deriving DecidableEq

def order : List Slot := [.revision, .openVolume]

def entry : Slot → Entry
  | .revision => .data .uint64
  | .openVolume => .function [pointer]

def openVolume : Method Slot := .inOrder .openVolume [pointer]

def methods : List (Method Slot) := [openVolume]

def interface : Interface Slot where
  order := order
  mem_order s := by cases s <;> decide
  entry := entry
  passesThis := true
  methods := methods
  fits := by decide

end SimpleFileSystemProtocol

namespace FileProtocol

inductive Slot where
  | revision | open_ | close | delete | read | write | getPosition | setPosition | getInfo | setInfo
  | flush
deriving DecidableEq

def order : List Slot :=
  [.revision, .open_, .close, .delete, .read, .write, .getPosition, .setPosition, .getInfo,
    .setInfo, .flush]

def entry : Slot → Entry
  | .revision => .data .uint64
  | .open_ => .function [pointer, pointer, uint64, uint64]
  | .close => .function []
  | .delete => .function []
  | .read => .function [pointer, pointer]
  | .write => .function [pointer, pointer]
  | .getPosition => .function [pointer]
  | .setPosition => .function [uint64]
  | .getInfo => .function [reference, pointer, pointer]
  | .setInfo => .function [reference, uint64, pointer]
  | .flush => .function []

def open_ : Method Slot := .inOrder .open_ [pointer, pointer, uint64, uint64]
def close : Method Slot := .inOrder .close []
def deleteFile : Method Slot := .inOrder .delete []
def read : Method Slot := .inOrder .read [pointer, pointer]
def write : Method Slot := .inOrder .write [pointer, pointer]
def setPosition : Method Slot := .inOrder .setPosition [uint64]
def getPosition : Method Slot := .inOrder .getPosition [pointer]
def getInfo : Method Slot := .inOrder .getInfo [reference, pointer, pointer]
def setInfo : Method Slot := .inOrder .setInfo [reference, uint64, pointer]

def methods : List (Method Slot) :=
  [open_, close, deleteFile, read, write, setPosition, getPosition, getInfo, setInfo]

def interface : Interface Slot where
  order := order
  mem_order s := by cases s <;> decide
  entry := entry
  passesThis := true
  methods := methods
  fits := by decide

end FileProtocol

namespace FileProtocol2

/-- The members of the base class, and its own. -/
inductive Slot where
  | inherited (s : FileProtocol.Slot)
  | openEx | readEx | writeEx | flushEx
deriving DecidableEq

def order : List Slot := FileProtocol.order.map .inherited ++ [.openEx, .readEx, .writeEx, .flushEx]

def entry : Slot → Entry
  | .inherited s => FileProtocol.entry s
  | .openEx => .function [pointer, pointer, uint64, uint64, pointer]
  | .readEx => .function [pointer]
  | .writeEx => .function [pointer]
  | .flushEx => .function [pointer]

/-- Those of the base class; the class has no others. -/
def methods : List (Method Slot) := FileProtocol.methods.map (Method.onSlot .inherited)

def interface : Interface Slot where
  order := order
  mem_order s := by
    cases s with
    | inherited s => cases s <;> decide
    | openEx | readEx | writeEx | flushEx => decide
  entry := entry
  passesThis := true
  methods := methods
  fits := by decide

/-- **The base class comes first**: its members keep their places, and the others begin where it ends. -/
theorem offset_eq (s : FileProtocol.Slot) :
    interface.offset (.inherited s) = FileProtocol.interface.offset s ∧
      interface.offset .openEx = FileProtocol.interface.cls.size := by
  cases s <;> decide

/-- The class has the size of one derived from the other. -/
theorem size_eq : interface.cls.size =
    (FileProtocol.interface.cls.derive [.pointer, .pointer, .pointer, .pointer]).size := by
  decide

end FileProtocol2

/-! ### Disks -/

namespace DiskIOProtocol

inductive Slot where
  | revision | readDisk | writeDisk
deriving DecidableEq

def order : List Slot := [.revision, .readDisk, .writeDisk]

def entry : Slot → Entry
  | .revision => .data .uint64
  | .readDisk => .function [uint32, uint64, uint64, pointer]
  | .writeDisk => .function [uint32, uint64, uint64, pointer]

def readDisk : Method Slot := .inOrder .readDisk [uint32, uint64, uint64, pointer]
def writeDisk : Method Slot := .inOrder .writeDisk [uint32, uint64, uint64, pointer]

def methods : List (Method Slot) := [readDisk, writeDisk]

def interface : Interface Slot where
  order := order
  mem_order s := by cases s <;> decide
  entry := entry
  passesThis := true
  methods := methods
  fits := by decide

end DiskIOProtocol

namespace BlockIOProtocol

inductive Slot where
  | revision | media | reset | readBlocks | writeBlocks | flushBlocks
deriving DecidableEq

def order : List Slot := [.revision, .media, .reset, .readBlocks, .writeBlocks, .flushBlocks]

def entry : Slot → Entry
  | .revision => .data .uint64
  | .media => .data .pointer
  | .reset => .function [bool]
  | .readBlocks => .function [uint32, uint64, uint64, pointer]
  | .writeBlocks => .function [uint32, uint64, uint64, pointer]
  | .flushBlocks => .function []

def reset : Method Slot := .inOrder .reset [bool]
def readBlocks : Method Slot := .inOrder .readBlocks [uint32, uint64, uint64, pointer]
def writeBlocks : Method Slot := .inOrder .writeBlocks [uint32, uint64, uint64, pointer]
def flushBlocks : Method Slot := .inOrder .flushBlocks []

def methods : List (Method Slot) := [reset, readBlocks, writeBlocks, flushBlocks]

def interface : Interface Slot where
  order := order
  mem_order s := by cases s <;> decide
  entry := entry
  passesThis := true
  methods := methods
  fits := by decide

end BlockIOProtocol

namespace EraseBlockProtocol

inductive Slot where
  | revision | eraseLengthGranularity | eraseBlocks
deriving DecidableEq

def order : List Slot := [.revision, .eraseLengthGranularity, .eraseBlocks]

def entry : Slot → Entry
  | .revision => .data .uint64
  | .eraseLengthGranularity => .data .uint32
  | .eraseBlocks => .function [uint32, uint64, pointer, uint64]

def eraseBlocks : Method Slot := .inOrder .eraseBlocks [uint32, uint64, pointer, uint64]

def methods : List (Method Slot) := [eraseBlocks]

def interface : Interface Slot where
  order := order
  mem_order s := by cases s <;> decide
  entry := entry
  passesThis := true
  methods := methods
  fits := by decide

end EraseBlockProtocol

/-! ### Debugging -/

namespace DebugSupportProtocol

inductive Slot where
  | isa | getMaximumProcessorIndex | registerPeriodicCallback | registerExceptionCallback
  | invalidateInstructionCache
deriving DecidableEq

def order : List Slot :=
  [.isa, .getMaximumProcessorIndex, .registerPeriodicCallback, .registerExceptionCallback,
    .invalidateInstructionCache]

def entry : Slot → Entry
  | .isa => .data .uint32
  | .getMaximumProcessorIndex => .function [pointer]
  | .registerPeriodicCallback => .function [uint64, pointer]
  | .registerExceptionCallback => .function [uint64, pointer, uint64]
  | .invalidateInstructionCache => .function [uint64, pointer, uint64]

def getMaxProcessorIndex : Method Slot := .inOrder .getMaximumProcessorIndex [pointer]
def registerPeriodicCallback : Method Slot := .inOrder .registerPeriodicCallback [uint64, pointer]
def registerExceptionCallback : Method Slot :=
  .inOrder .registerExceptionCallback [uint64, pointer, uint64]
def invalidateInstructionCache : Method Slot :=
  .inOrder .invalidateInstructionCache [uint64, pointer, uint64]

def methods : List (Method Slot) :=
  [getMaxProcessorIndex, registerPeriodicCallback, registerExceptionCallback,
    invalidateInstructionCache]

def interface : Interface Slot where
  order := order
  mem_order s := by cases s <;> decide
  entry := entry
  passesThis := true
  methods := methods
  fits := by decide

end DebugSupportProtocol

namespace DebugPortProtocol

inductive Slot where
  | reset | write | read | poll
deriving DecidableEq

def order : List Slot := [.reset, .write, .read, .poll]

def entry : Slot → Entry
  | .reset => .function []
  | .write => .function [uint32, pointer, pointer]
  | .read => .function [uint32, pointer, pointer]
  | .poll => .function []

def reset : Method Slot := .inOrder .reset []

/-- `timeout` comes last, and is 0 unless given. -/
def write : Method Slot where
  slot := .write
  params := [pointer, pointer, uint32]
  args := [.param 2, .param 0, .param 1]
  defaults := [.word 0]

def read : Method Slot where
  slot := .read
  params := [pointer, pointer, uint32]
  args := [.param 2, .param 0, .param 1]
  defaults := [.word 0]

def poll : Method Slot := .inOrder .poll []

def methods : List (Method Slot) := [reset, write, read, poll]

def interface : Interface Slot where
  order := order
  mem_order s := by cases s <;> decide
  entry := entry
  passesThis := true
  methods := methods
  fits := by decide

end DebugPortProtocol

end MuchCoolEfi.Firmware.Files
