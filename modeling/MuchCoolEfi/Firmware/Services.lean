import MuchCoolEfi.Configuration.Refinement
import MuchCoolEfi.Cxx.Tables

/-! # Boot and runtime services

The two service tables. Their functions are no member functions: they do not get the table. A `Slot` is
a member of the class, in the order of the declarations, and `entry` its type, for a function the types
of the parameters. A method is what its definition in the class calls, and with what.

The methods that take the GUID from a protocol class are not here: the concept they require asks for
an expression `T::Guid->Guid`, and no class has one. -/

namespace MuchCoolEfi.Firmware.Services

open MuchCoolEfi.Cxx.Parts MuchCoolEfi.Cxx.Forwarding MuchCoolEfi.Cxx.Forwarding.ParamType
open MuchCoolEfi.Cxx.Forwarding.Arg MuchCoolEfi.Cxx.Tables
open MuchCoolEfi.Configuration.Refinement (table)

/-! ### Boot services -/

namespace BootServices

inductive Slot where
  | base
  | raiseTpl | restoreTpl
  | allocatePages | freePages | getMemoryMap | allocatePool | freePool
  | createEvent | setTimer | waitForEvent | signalEvent | closeEvent | checkEvent
  | installProtocolInterface | reinstallProtocolInterface | uninstallProtocolInterface
  | handleProtocol | reserved | registerProtocolNotify | locateHandle | locateDevicePath
  | installConfigurationTable
  | loadImage | imageStart | exit | unloadImage | exitBootServices
  | getNextMonotonicCount | stall | setWatchdogTimer
  | connectController | disconnectController
  | openProtocol | closeProtocol | openProtocolInformation
  | protocolsPerHandle | locateHandleBuffer | locateProtocol
  | installMultipleProtocolInterfaces | uninstallMultipleProtocolInterfaces
  | calculateCrc32 | copyMem | setMem | createEventEx
deriving DecidableEq

def order : List Slot :=
  [.base, .raiseTpl, .restoreTpl, .allocatePages, .freePages, .getMemoryMap, .allocatePool, .freePool,
    .createEvent, .setTimer, .waitForEvent, .signalEvent, .closeEvent, .checkEvent,
    .installProtocolInterface, .reinstallProtocolInterface, .uninstallProtocolInterface, .handleProtocol,
    .reserved, .registerProtocolNotify, .locateHandle, .locateDevicePath, .installConfigurationTable,
    .loadImage, .imageStart, .exit, .unloadImage, .exitBootServices, .getNextMonotonicCount, .stall,
    .setWatchdogTimer, .connectController, .disconnectController, .openProtocol, .closeProtocol,
    .openProtocolInformation, .protocolsPerHandle, .locateHandleBuffer, .locateProtocol,
    .installMultipleProtocolInterfaces, .uninstallMultipleProtocolInterfaces, .calculateCrc32, .copyMem,
    .setMem, .createEventEx]

/-- The two functions for multiple protocol interfaces take any arguments after the first. -/
def entry : Slot → Entry
  | .base => .data (.object table.layout)
  | .raiseTpl => .function [uint64]
  | .restoreTpl => .function [uint64]
  | .allocatePages => .function [uint32, uint32, uint64, pointer]
  | .freePages => .function [uint64, uint64]
  | .getMemoryMap => .function [pointer, pointer, pointer, pointer, pointer]
  | .allocatePool => .function [uint32, uint64, pointer]
  | .freePool => .function [pointer]
  | .createEvent => .function [uint32, uint64, pointer, pointer, pointer]
  | .setTimer => .function [pointer, uint32, uint64]
  | .waitForEvent => .function [uint64, pointer, pointer]
  | .signalEvent => .function [pointer]
  | .closeEvent => .function [pointer]
  | .checkEvent => .function [pointer]
  | .installProtocolInterface => .function [pointer, pointer, uint32, pointer]
  | .reinstallProtocolInterface => .function [pointer, pointer, pointer, pointer]
  | .uninstallProtocolInterface => .function [pointer, pointer, pointer]
  | .handleProtocol => .function [pointer, reference, pointer]
  | .reserved => .data .pointer
  | .registerProtocolNotify => .function [pointer, pointer, pointer]
  | .locateHandle => .function [uint32, reference, pointer, pointer, pointer]
  | .locateDevicePath => .function [reference, pointer, pointer]
  | .installConfigurationTable => .function [pointer, pointer]
  | .loadImage => .function [bool, pointer, pointer, pointer, uint64, pointer]
  | .imageStart => .function [pointer, pointer, pointer]
  | .exit => .function [pointer, uint64, uint64, pointer]
  | .unloadImage => .function [pointer]
  | .exitBootServices => .function [pointer, uint64]
  | .getNextMonotonicCount => .function [pointer]
  | .stall => .function [uint64]
  | .setWatchdogTimer => .function [uint64, uint64, uint64, pointer]
  | .connectController => .function [pointer, pointer, pointer, bool]
  | .disconnectController => .function [pointer, pointer, pointer]
  | .openProtocol => .function [pointer, reference, pointer, pointer, pointer, uint32]
  | .closeProtocol => .function [pointer, reference, pointer, pointer]
  | .openProtocolInformation => .function [pointer, pointer, pointer, pointer]
  | .protocolsPerHandle => .function [pointer, pointer, pointer]
  | .locateHandleBuffer => .function [uint32, pointer, pointer, pointer, pointer]
  | .locateProtocol => .function [reference, pointer, pointer]
  | .installMultipleProtocolInterfaces => .function [pointer]
  | .uninstallMultipleProtocolInterfaces => .function [pointer]
  | .calculateCrc32 => .function [pointer, uint64, pointer]
  | .copyMem => .function [pointer, pointer, uint64]
  | .setMem => .function [pointer, uint64, uint8]
  | .createEventEx => .function [uint32, uint64, pointer, pointer, pointer, pointer]

def raiseTpl : Method Slot := .inOrder .raiseTpl [uint64]
def restoreTpl : Method Slot := .inOrder .restoreTpl [uint64]
def createEvent : Method Slot := .inOrder .createEvent [uint32, uint64, pointer, pointer, pointer]
def closeEvent : Method Slot := .inOrder .closeEvent [pointer]
def signalEvent : Method Slot := .inOrder .signalEvent [pointer]
def waitForEvents : Method Slot := .inOrder .waitForEvent [uint64, pointer, pointer]
def checkEvent : Method Slot := .inOrder .checkEvent [pointer]
def setTimer : Method Slot := .inOrder .setTimer [pointer, uint32, uint64]
def allocatePages : Method Slot := .inOrder .allocatePages [uint32, uint32, uint64, pointer]
def freePages : Method Slot := .inOrder .freePages [uint64, uint64]
def getMemoryMap : Method Slot :=
  .inOrder .getMemoryMap [pointer, pointer, pointer, pointer, pointer]
def allocatePool : Method Slot := .inOrder .allocatePool [uint32, uint64, pointer]
def freePool : Method Slot := .inOrder .freePool [pointer]
def loadImage : Method Slot :=
  .inOrder .loadImage [bool, pointer, pointer, pointer, uint64, pointer]
def startImage : Method Slot := .inOrder .imageStart [pointer, pointer, pointer]
def exit : Method Slot := .inOrder .exit [pointer, uint64, uint64, pointer]

/-- `exit(image_handle, exit_status)`, by way of the other `exit`. -/
def exitNoData : Method Slot where
  slot := .exit
  params := [pointer, uint64]
  args := [.param 0, .param 1, num 0, null]

def exitBootServices : Method Slot := .inOrder .exitBootServices [pointer, uint64]
def locateHandle : Method Slot :=
  .inOrder .locateHandle [uint32, reference, pointer, pointer, pointer]
def handleProtocol : Method Slot := .inOrder .handleProtocol [pointer, reference, pointer]
def locateDevicePath : Method Slot := .inOrder .locateDevicePath [reference, pointer, pointer]
def openProtocol : Method Slot :=
  .inOrder .openProtocol [pointer, reference, pointer, pointer, pointer, uint32]
def closeProtocol : Method Slot := .inOrder .closeProtocol [pointer, reference, pointer, pointer]
def protocolsPerHandle : Method Slot := .inOrder .protocolsPerHandle [pointer, pointer, pointer]
def locateHandleBuffer : Method Slot :=
  .inOrder .locateHandleBuffer [uint32, pointer, pointer, pointer, pointer]

/-- `LocateSearchType::AllHandles`, which is 0. -/
def locateHandleBufferAll : Method Slot where
  slot := .locateHandleBuffer
  params := [pointer, pointer]
  args := [num 0, null, null, .param 0, .param 1]

/-- `LocateSearchType::ByProtocol`, which is 2. -/
def locateHandleBufferByProtocol : Method Slot where
  slot := .locateHandleBuffer
  params := [reference, pointer, pointer]
  args := [num 2, .param 0, null, .param 1, .param 2]

/-- `LocateSearchType::ByRegisterNotify`, which is 1. -/
def locateHandleBufferByKey : Method Slot where
  slot := .locateHandleBuffer
  params := [pointer, pointer, pointer]
  args := [num 1, null, .param 0, .param 1, .param 2]

def locateProtocol : Method Slot := .inOrder .locateProtocol [reference, pointer, pointer]
def setWatchdogTimer : Method Slot :=
  .inOrder .setWatchdogTimer [uint64, uint64, uint64, pointer]

/-- `set_watchdog_timer(timeout_sec)`, with the code `UINT64_MAX`. -/
def setWatchdogTimerOnly : Method Slot where
  slot := .setWatchdogTimer
  params := [uint64]
  args := [.param 0, num 0xffffffffffffffff, num 0, null]

/-- The one in microseconds. -/
def stall : Method Slot := .inOrder .stall [uint64]

/-- `stall(float seconds)`. -/
def stallSeconds : Conversion Slot where
  slot := .stall
  factor := 1000000

def copyMem : Method Slot := .inOrder .copyMem [pointer, pointer, uint64]
def setMem : Method Slot := .inOrder .setMem [pointer, uint64, uint8]
def getNextMonotonicCount : Method Slot := .inOrder .getNextMonotonicCount [pointer]
def calculateCrc32 : Method Slot := .inOrder .calculateCrc32 [pointer, uint64, pointer]

def methods : List (Method Slot) :=
  [raiseTpl, restoreTpl, createEvent, closeEvent,
    signalEvent, waitForEvents, checkEvent, setTimer,
    allocatePages, freePages, getMemoryMap, allocatePool,
    freePool, loadImage, startImage, exit, exitNoData,
    exitBootServices, locateHandle, handleProtocol,
    locateDevicePath, openProtocol, closeProtocol,
    protocolsPerHandle, locateHandleBuffer, locateHandleBufferAll,
    locateHandleBufferByProtocol, locateHandleBufferByKey, locateProtocol,
    setWatchdogTimer, setWatchdogTimerOnly, stall, copyMem, setMem,
    getNextMonotonicCount, calculateCrc32]

def interface : Interface Slot where
  order := order
  mem_order s := by cases s <;> decide
  entry := entry
  passesThis := false
  methods := methods
  conversions := [stallSeconds]
  fits := by decide

end BootServices

/-! ### Runtime services -/

namespace RuntimeServices

inductive Slot where
  | base
  | getTime | setTime | getWakeupTime | setWakeupTime
  | setVirtualAddressMap | convertPointer
  | getVariable | getNextVariableName | setVariable
  | getNextHighMonotonicCount | resetSystem
  | updateCapsule | queryCapsuleCapabilities
  | queryVariableInfo
deriving DecidableEq

def order : List Slot :=
  [.base, .getTime, .setTime, .getWakeupTime, .setWakeupTime, .setVirtualAddressMap, .convertPointer,
    .getVariable, .getNextVariableName, .setVariable, .getNextHighMonotonicCount, .resetSystem,
    .updateCapsule, .queryCapsuleCapabilities, .queryVariableInfo]

def entry : Slot → Entry
  | .base => .data (.object table.layout)
  | .getTime => .function [pointer, pointer]
  | .setTime => .function [reference]
  | .getWakeupTime => .function [pointer, pointer, pointer]
  | .setWakeupTime => .function [bool, pointer]
  | .setVirtualAddressMap => .function [uint64, uint64, uint64, pointer]
  | .convertPointer => .function [uint64, pointer]
  | .getVariable => .function [pointer, reference, pointer, pointer, pointer]
  | .getNextVariableName => .function [pointer, pointer, pointer]
  | .setVariable => .function [pointer, reference, uint32, uint64, pointer]
  | .getNextHighMonotonicCount => .function [pointer]
  | .resetSystem => .function [uint32, uint64, uint64, pointer]
  | .updateCapsule => .function [pointer, uint64, uint64]
  | .queryCapsuleCapabilities => .function [pointer, uint64, pointer, pointer]
  | .queryVariableInfo => .function [uint32, pointer, pointer, pointer]

def getTime : Method Slot := .inOrder .getTime [pointer, pointer]
def setTime : Method Slot := .inOrder .setTime [reference]
def getWakeupTime : Method Slot := .inOrder .getWakeupTime [pointer, pointer, pointer]

/-- `set_wakeup_time()`, which disables the timer. -/
def setWakeupTimeOff : Method Slot where
  slot := .setWakeupTime
  params := []
  args := [flag false, null]

def setWakeupTime : Method Slot where
  slot := .setWakeupTime
  params := [reference]
  args := [flag true, .param 0]

def setVirtualAddressMap : Method Slot :=
  .inOrder .setVirtualAddressMap [uint64, uint64, uint64, pointer]
def convertPointer : Method Slot := .inOrder .convertPointer [uint64, pointer]
def getVariable : Method Slot :=
  .inOrder .getVariable [pointer, reference, pointer, pointer, pointer]
def setVariable : Method Slot :=
  .inOrder .setVariable [pointer, reference, uint32, uint64, pointer]
def getNextVariableName : Method Slot :=
  .inOrder .getNextVariableName [pointer, pointer, pointer]
def getNextHighMonotonicCount : Method Slot := .inOrder .getNextHighMonotonicCount [pointer]

def resetSystem : Method Slot where
  slot := .resetSystem
  params := [uint32, uint64, uint64, pointer]
  args := [.param 0, .param 1, .param 2, .param 3]
  defaults := [.word 0, .word 0]
  returns := false

/-- The template, for all types at once: the size of the type is the third parameter. -/
def resetSystemData : Method Slot where
  slot := .resetSystem
  params := [uint32, uint64, uint64, reference]
  args := [.param 0, .param 1, .param 2, .param 3]
  returns := false

def updateCapsule : Method Slot := .inOrder .updateCapsule [pointer, uint64, uint64]
def queryCapsuleCapabilities : Method Slot :=
  .inOrder .queryCapsuleCapabilities [pointer, uint64, pointer, pointer]

def methods : List (Method Slot) :=
  [getTime, setTime, getWakeupTime, setWakeupTimeOff, setWakeupTime, setVirtualAddressMap,
    convertPointer, getVariable, setVariable, getNextVariableName, getNextHighMonotonicCount,
    resetSystem, resetSystemData, updateCapsule, queryCapsuleCapabilities]

def interface : Interface Slot where
  order := order
  mem_order s := by cases s <;> decide
  entry := entry
  passesThis := false
  methods := methods
  fits := by decide

end RuntimeServices

end MuchCoolEfi.Firmware.Services
