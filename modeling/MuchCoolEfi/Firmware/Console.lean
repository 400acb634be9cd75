import MuchCoolEfi.Cxx.Tables

/-! # Console protocols

Keyboards, screens, pointers, serial lines and graphics. Their functions get the object first; a
method is what its definition in the class calls, and with what. -/

namespace MuchCoolEfi.Firmware.Console

open MuchCoolEfi.Cxx.Parts MuchCoolEfi.Cxx.Forwarding MuchCoolEfi.Cxx.Forwarding.ParamType
open MuchCoolEfi.Cxx.Forwarding.Arg MuchCoolEfi.Cxx.Tables

/-- `reset(bool extended_verification = false)`. -/
def resetOf {S : Type} (reset : S) : Method S where
  slot := reset
  params := [bool]
  args := [.param 0]
  defaults := [.word 0]

/-! ### Text -/

namespace SimpleTextInputProtocol

inductive Slot where
  | reset | readKeyStroke | waitForKey
deriving DecidableEq

def order : List Slot := [.reset, .readKeyStroke, .waitForKey]

def entry : Slot → Entry
  | .reset => .function [bool]
  | .readKeyStroke => .function [pointer]
  | .waitForKey => .data .pointer

def reset : Method Slot := resetOf .reset
def readKeyStroke : Method Slot := .inOrder .readKeyStroke [pointer]

def methods : List (Method Slot) := [reset, readKeyStroke]

def interface : Interface Slot where
  order := order
  mem_order s := by cases s <;> decide
  entry := entry
  passesThis := true
  methods := methods
  fits := by decide

end SimpleTextInputProtocol

namespace SimpleTextOutputProtocol

inductive Slot where
  | reset | outputString | testString | queryMode | setMode | setAttribute | clearScreen
  | setCursorPosition | enableCursor | mode
deriving DecidableEq

def order : List Slot :=
  [.reset, .outputString, .testString, .queryMode, .setMode, .setAttribute, .clearScreen,
    .setCursorPosition, .enableCursor, .mode]

def entry : Slot → Entry
  | .reset => .function [bool]
  | .outputString => .function [pointer]
  | .testString => .function [pointer]
  | .queryMode => .function [uint64, pointer, pointer]
  | .setMode => .function [uint64]
  | .setAttribute => .function [uint32]
  | .clearScreen => .function []
  | .setCursorPosition => .function [uint64, uint64]
  | .enableCursor => .function [bool]
  | .mode => .data .pointer

def reset : Method Slot := resetOf .reset
def outputString : Method Slot := .inOrder .outputString [pointer]
def testString : Method Slot := .inOrder .testString [pointer]
def queryMode : Method Slot := .inOrder .queryMode [uint64, pointer, pointer]
def setMode : Method Slot := .inOrder .setMode [uint64]
def setAttribute : Method Slot := .inOrder .setAttribute [uint32]
def clearScreen : Method Slot := .inOrder .clearScreen []
def setCursorPosition : Method Slot := .inOrder .setCursorPosition [uint64, uint64]
def enableCursor : Method Slot := .inOrder .enableCursor [bool]

def methods : List (Method Slot) :=
  [reset, outputString, testString, queryMode, setMode, setAttribute, clearScreen,
    setCursorPosition, enableCursor]

def interface : Interface Slot where
  order := order
  mem_order s := by cases s <;> decide
  entry := entry
  passesThis := true
  methods := methods
  fits := by decide

end SimpleTextOutputProtocol

namespace SimpleTextInputExProtocol

inductive Slot where
  | reset | readKeystroke | waitForKey | setState | registerKeyNotify | unregisterKeyNotify
deriving DecidableEq

def order : List Slot :=
  [.reset, .readKeystroke, .waitForKey, .setState, .registerKeyNotify, .unregisterKeyNotify]

def entry : Slot → Entry
  | .reset => .function [bool]
  | .readKeystroke => .function [pointer]
  | .waitForKey => .data .pointer
  | .setState => .function [reference]
  | .registerKeyNotify => .function [reference, pointer, pointer]
  | .unregisterKeyNotify => .function [pointer]

def reset : Method Slot := resetOf .reset
def readKeystroke : Method Slot := .inOrder .readKeystroke [pointer]
def setState : Method Slot := .inOrder .setState [reference]
def registerKeyNotify : Method Slot := .inOrder .registerKeyNotify [reference, pointer, pointer]
def unregisterKeyNotify : Method Slot := .inOrder .unregisterKeyNotify [pointer]

def methods : List (Method Slot) :=
  [reset, readKeystroke, setState, registerKeyNotify, unregisterKeyNotify]

def interface : Interface Slot where
  order := order
  mem_order s := by cases s <;> decide
  entry := entry
  passesThis := true
  methods := methods
  fits := by decide

end SimpleTextInputExProtocol

/-! ### Pointers -/

namespace SimplePointerProtocol

inductive Slot where
  | reset | getState | waitForInput | mode
deriving DecidableEq

def order : List Slot := [.reset, .getState, .waitForInput, .mode]

def entry : Slot → Entry
  | .reset => .function [bool]
  | .getState => .function [pointer]
  | .waitForInput => .data .pointer
  | .mode => .data .pointer

def reset : Method Slot := resetOf .reset
def getState : Method Slot := .inOrder .getState [pointer]

def methods : List (Method Slot) := [reset, getState]

def interface : Interface Slot where
  order := order
  mem_order s := by cases s <;> decide
  entry := entry
  passesThis := true
  methods := methods
  fits := by decide

end SimplePointerProtocol

namespace AbsolutePointerProtocol

inductive Slot where
  | reset | getState | waitForInput | mode
deriving DecidableEq

def order : List Slot := [.reset, .getState, .waitForInput, .mode]

def entry : Slot → Entry
  | .reset => .function [bool]
  | .getState => .function [pointer]
  | .waitForInput => .data .pointer
  | .mode => .data .pointer

def reset : Method Slot := resetOf .reset
def getState : Method Slot := .inOrder .getState [pointer]

def methods : List (Method Slot) := [reset, getState]

def interface : Interface Slot where
  order := order
  mem_order s := by cases s <;> decide
  entry := entry
  passesThis := true
  methods := methods
  fits := by decide

end AbsolutePointerProtocol

/-! ### Serial lines and graphics -/

namespace SerialIOProtocol

inductive Slot where
  | revision | reset | setAttribute | setControl | getControl | write | read | mode | deviceTypeGuid
deriving DecidableEq

def order : List Slot :=
  [.revision, .reset, .setAttribute, .setControl, .getControl, .write, .read, .mode,
    .deviceTypeGuid]

def entry : Slot → Entry
  | .revision => .data .uint32
  | .reset => .function []
  | .setAttribute => .function [uint64, uint32, uint32, uint32, uint8, uint32]
  | .setControl => .function [uint32]
  | .getControl => .function [pointer]
  | .write => .function [pointer, pointer]
  | .read => .function [pointer, pointer]
  | .mode => .data .pointer
  | .deviceTypeGuid => .data .pointer

def reset : Method Slot := .inOrder .reset []
def setAttribute : Method Slot :=
  .inOrder .setAttribute [uint64, uint32, uint32, uint32, uint8, uint32]
def setControl : Method Slot := .inOrder .setControl [uint32]
def getControl : Method Slot := .inOrder .getControl [pointer]
def write : Method Slot := .inOrder .write [pointer, pointer]
def read : Method Slot := .inOrder .read [pointer, pointer]

def methods : List (Method Slot) := [reset, setAttribute, setControl, getControl, write, read]

def interface : Interface Slot where
  order := order
  mem_order s := by cases s <;> decide
  entry := entry
  passesThis := true
  methods := methods
  fits := by decide

end SerialIOProtocol

namespace GraphicsOutputProtocol

inductive Slot where
  | queryMode | setMode | blt | mode
deriving DecidableEq

def order : List Slot := [.queryMode, .setMode, .blt, .mode]

def entry : Slot → Entry
  | .queryMode => .function [uint32, pointer, pointer]
  | .setMode => .function [uint32]
  | .blt => .function [pointer, uint32, uint64, uint64, uint64, uint64, uint64, uint64, uint64]
  | .mode => .data .pointer

def queryMode : Method Slot := .inOrder .queryMode [uint32, pointer, pointer]
def setMode : Method Slot := .inOrder .setMode [uint32]
def blt : Method Slot :=
  .inOrder .blt [pointer, uint32, uint64, uint64, uint64, uint64, uint64, uint64, uint64]

def methods : List (Method Slot) := [queryMode, setMode, blt]

def interface : Interface Slot where
  order := order
  mem_order s := by cases s <;> decide
  entry := entry
  passesThis := true
  methods := methods
  fits := by decide

end GraphicsOutputProtocol

namespace EdidOverrideProtocol

inductive Slot where
  | getEdid
deriving DecidableEq

def order : List Slot := [.getEdid]

def entry : Slot → Entry
  | .getEdid => .function [pointer, pointer, pointer, pointer]

def getEdid : Method Slot := .inOrder .getEdid [pointer, pointer, pointer, pointer]

def methods : List (Method Slot) := [getEdid]

def interface : Interface Slot where
  order := order
  mem_order s := by cases s; decide
  entry := entry
  passesThis := true
  methods := methods
  fits := by decide

end EdidOverrideProtocol

end MuchCoolEfi.Firmware.Console
