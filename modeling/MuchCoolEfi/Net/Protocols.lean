import MuchCoolEfi.Cxx.Tables

/-! # Network protocols

From the network interface to TCP. Here the methods are more than their functions: one function joins
groups, leaves them and leaves all of them, one adds and deletes routes, and a null configuration is
a reset. -/

namespace MuchCoolEfi.Net.Protocols

open MuchCoolEfi.Cxx.Parts MuchCoolEfi.Cxx.Record MuchCoolEfi.Cxx.Forwarding
open MuchCoolEfi.Cxx.Forwarding.ParamType MuchCoolEfi.Cxx.Forwarding.Arg MuchCoolEfi.Cxx.Tables

/-! ### Methods of several protocols -/

section Families

variable {S : Type}

/-- `groups_(this, true, &address)`. -/
def joinGroupOf (groups : S) : Method S where
  slot := groups
  params := [reference]
  args := [flag true, .param 0]

/-- `groups_(this, false, &address)`. -/
def leaveGroupOf (groups : S) : Method S where
  slot := groups
  params := [reference]
  args := [flag false, .param 0]

/-- `groups_(this, false, nullptr)`. -/
def leaveAllGroupsOf (groups : S) : Method S where
  slot := groups
  params := []
  args := [flag false, null]

/-- `routes_(this, false, subnet, subnet_mask, gateway)`. -/
def addRouteOf (routes : S) : Method S where
  slot := routes
  params := [reference, reference, reference]
  args := [flag false, .param 0, .param 1, .param 2]

/-- `routes_(this, true, subnet, subnet_mask, gateway)`. -/
def deleteRouteOf (routes : S) : Method S where
  slot := routes
  params := [reference, reference, reference]
  args := [flag true, .param 0, .param 1, .param 2]

/-- `mcast_ip_to_mac` of an `Ipv4Address`. -/
def mcastIpv4ToMacOf (mcastIpToMac : S) : Method S where
  slot := mcastIpToMac
  params := [reference, pointer]
  args := [flag false, .param 0, .param 1]

/-- `mcast_ip_to_mac` of an `Ipv6Address`. -/
def mcastIpv6ToMacOf (mcastIpToMac : S) : Method S where
  slot := mcastIpToMac
  params := [reference, pointer]
  args := [flag true, .param 0, .param 1]

/-- `configure_(this, nullptr)`. -/
def resetOf (configure : S) : Method S where
  slot := configure
  params := []
  args := [null]

end Families

/-! ### Arguments by value -/

/-- `Ipv4Address`, by value. -/
def ipv4Address : ParamType := .object 4

/-- `Dns4CacheEntry`: two pointers and a 32-bit timeout. -/
def dns4CacheEntry : ParamType := .object (ClassType.size ⟨none, [.pointer, .pointer, .uint32]⟩)

/-! ### The protocols -/

namespace SimpleNetworkProtocol

inductive Slot where
  | revision | start | stop | initialize_ | reset | shutdown | receiveFilters | stationAddress
  | statistics | mcastIpToMac | nvData | getStatus | transmit | receive | waitForPacket
deriving DecidableEq

def order : List Slot :=
  [.revision, .start, .stop, .initialize_, .reset, .shutdown, .receiveFilters, .stationAddress,
    .statistics, .mcastIpToMac, .nvData, .getStatus, .transmit, .receive, .waitForPacket]

def entry : Slot → Entry
  | .revision => .data .uint64
  | .start => .function []
  | .stop => .function []
  | .initialize_ => .function [uint64, uint64]
  | .reset => .function [bool]
  | .shutdown => .function []
  | .receiveFilters => .function [uint32, uint32, bool, uint64, pointer]
  | .stationAddress => .function [bool, pointer]
  | .statistics => .function [bool, pointer, pointer]
  | .mcastIpToMac => .function [bool, reference, pointer]
  | .nvData => .function [bool, uint64, uint64, pointer]
  | .getStatus => .function [pointer, pointer]
  | .transmit => .function [uint64, uint64, pointer, pointer, pointer, pointer]
  | .receive => .function [pointer, pointer, pointer, pointer, pointer, pointer]
  | .waitForPacket => .data .pointer

def start : Method Slot := .inOrder .start []
def stop : Method Slot := .inOrder .stop []

def initialize_ : Method Slot where
  slot := .initialize_
  params := [uint64, uint64]
  args := [.param 0, .param 1]
  defaults := [.word 0, .word 0]

def reset : Method Slot where
  slot := .reset
  params := [bool]
  args := [.param 0]
  defaults := [.word 0]

def shutdown : Method Slot := .inOrder .shutdown []
def receiveFilters : Method Slot := .inOrder .receiveFilters [uint32, uint32, bool, uint64, pointer]
def stationAddress : Method Slot := .inOrder .stationAddress [bool, pointer]
def statistics : Method Slot := .inOrder .statistics [bool, pointer, pointer]
def mcastIpv4ToMac : Method Slot := mcastIpv4ToMacOf .mcastIpToMac
def mcastIpv6ToMac : Method Slot := mcastIpv6ToMacOf .mcastIpToMac
def nvData : Method Slot := .inOrder .nvData [bool, uint64, uint64, pointer]
def getStatus : Method Slot := .inOrder .getStatus [pointer, pointer]
def transmit : Method Slot :=
  .inOrder .transmit [uint64, uint64, pointer, pointer, pointer, pointer]
def receive : Method Slot :=
  .inOrder .receive [pointer, pointer, pointer, pointer, pointer, pointer]

def methods : List (Method Slot) :=
  [start, stop, initialize_, reset, shutdown, receiveFilters, stationAddress, statistics,
    mcastIpv4ToMac, mcastIpv6ToMac, nvData, getStatus, transmit, receive]

def interface : Interface Slot where
  order := order
  mem_order s := by cases s <;> decide
  entry := entry
  passesThis := true
  methods := methods
  fits := by decide

end SimpleNetworkProtocol

namespace ManagedNetworkProtocol

inductive Slot where
  | getModeData | configure | mcastIpToMac | groups | transmit | receive | cancel | poll
deriving DecidableEq

def order : List Slot :=
  [.getModeData, .configure, .mcastIpToMac, .groups, .transmit, .receive, .cancel, .poll]

def entry : Slot → Entry
  | .getModeData => .function [pointer, pointer]
  | .configure => .function [pointer]
  | .mcastIpToMac => .function [bool, reference, pointer]
  | .groups => .function [bool, pointer]
  | .transmit => .function [pointer]
  | .receive => .function [pointer]
  | .cancel => .function [pointer]
  | .poll => .function []

def getModeData : Method Slot := .inOrder .getModeData [pointer, pointer]
def configure : Method Slot := .inOrder .configure [pointer]
def mcastIpv4ToMac : Method Slot := mcastIpv4ToMacOf .mcastIpToMac
def mcastIpv6ToMac : Method Slot := mcastIpv6ToMacOf .mcastIpToMac
def joinGroup : Method Slot := joinGroupOf .groups
def leaveGroup : Method Slot := leaveGroupOf .groups
def leaveAllGroups : Method Slot := leaveAllGroupsOf .groups
def transmit : Method Slot := .inOrder .transmit [pointer]
def receive : Method Slot := .inOrder .receive [pointer]
def cancel : Method Slot := .inOrder .cancel [pointer]
def poll : Method Slot := .inOrder .poll []

def methods : List (Method Slot) :=
  [getModeData, configure, mcastIpv4ToMac, mcastIpv6ToMac, joinGroup, leaveGroup, leaveAllGroups,
    transmit, receive, cancel, poll]

def interface : Interface Slot where
  order := order
  mem_order s := by cases s <;> decide
  entry := entry
  passesThis := true
  methods := methods
  fits := by decide

end ManagedNetworkProtocol

namespace Ipv4Protocol

inductive Slot where
  | getModeData | configure | groups | routes | transmit | receive | cancel | poll
deriving DecidableEq

def order : List Slot :=
  [.getModeData, .configure, .groups, .routes, .transmit, .receive, .cancel, .poll]

def entry : Slot → Entry
  | .getModeData => .function [pointer, pointer, pointer]
  | .configure => .function [pointer]
  | .groups => .function [bool, pointer]
  | .routes => .function [bool, reference, reference, reference]
  | .transmit => .function [pointer]
  | .receive => .function [pointer]
  | .cancel => .function [pointer]
  | .poll => .function []

def getModeData : Method Slot := .inOrder .getModeData [pointer, pointer, pointer]
def configure : Method Slot := .inOrder .configure [pointer]
def reset : Method Slot := resetOf .configure
def joinGroup : Method Slot := joinGroupOf .groups
def leaveGroup : Method Slot := leaveGroupOf .groups
def leaveAllGroups : Method Slot := leaveAllGroupsOf .groups
def addRoute : Method Slot := addRouteOf .routes
def deleteRoute : Method Slot := deleteRouteOf .routes
def transmit : Method Slot := .inOrder .transmit [pointer]
def recieve : Method Slot := .inOrder .receive [pointer]
def cancel : Method Slot := .inOrder .cancel [pointer]
def poll : Method Slot := .inOrder .poll []

def methods : List (Method Slot) :=
  [getModeData, configure, reset, joinGroup, leaveGroup, leaveAllGroups, addRoute, deleteRoute,
    transmit, recieve, cancel, poll]

def interface : Interface Slot where
  order := order
  mem_order s := by cases s <;> decide
  entry := entry
  passesThis := true
  methods := methods
  fits := by decide

end Ipv4Protocol

namespace ArpProtocol

inductive Slot where
  | configure | add | find | delete | flush | request | cancel
deriving DecidableEq

def order : List Slot := [.configure, .add, .find, .delete, .flush, .request, .cancel]

def entry : Slot → Entry
  | .configure => .function [pointer]
  | .add => .function [bool, pointer, pointer, uint32, bool]
  | .find => .function [bool, pointer, pointer, pointer, pointer, bool]
  | .delete => .function [bool, pointer]
  | .flush => .function []
  | .request => .function [pointer, pointer, pointer]
  | .cancel => .function [pointer, pointer]

def configure : Method Slot := .inOrder .configure [reference]
def reset : Method Slot := resetOf .configure
def add : Method Slot := .inOrder .add [bool, pointer, pointer, uint32, bool]
def find : Method Slot := .inOrder .find [bool, pointer, pointer, pointer, pointer, bool]
def deleteEntry : Method Slot := .inOrder .delete [bool, pointer]
def flush : Method Slot := .inOrder .flush []
def request : Method Slot := .inOrder .request [pointer, pointer, pointer]
def cancel : Method Slot := .inOrder .cancel [pointer, pointer]

def methods : List (Method Slot) :=
  [configure, reset, add, find, deleteEntry, flush, request, cancel]

def interface : Interface Slot where
  order := order
  mem_order s := by cases s <;> decide
  entry := entry
  passesThis := true
  methods := methods
  fits := by decide

end ArpProtocol

namespace DHCP4Protocol

inductive Slot where
  | getModeData | configure | start | renewRebind | release | stop | build | transmitRecieve | parse
deriving DecidableEq

def order : List Slot :=
  [.getModeData, .configure, .start, .renewRebind, .release, .stop, .build, .transmitRecieve,
    .parse]

def entry : Slot → Entry
  | .getModeData => .function [pointer]
  | .configure => .function [pointer]
  | .start => .function [pointer]
  | .renewRebind => .function [bool, pointer]
  | .release => .function []
  | .stop => .function []
  | .build => .function [pointer, uint32, pointer, uint32, pointer, pointer]
  | .transmitRecieve => .function [reference]
  | .parse => .function [pointer, pointer, pointer]

def getModeData : Method Slot := .inOrder .getModeData [pointer]
def configure : Method Slot := .inOrder .configure [reference]
def reset : Method Slot := resetOf .configure
def start : Method Slot := .inOrder .start [pointer]
def renewRebind : Method Slot := .inOrder .renewRebind [bool, pointer]
def release : Method Slot := .inOrder .release []
def stop : Method Slot := .inOrder .stop []
def build : Method Slot := .inOrder .build [reference, uint32, pointer, uint32, pointer, pointer]
def transmitRecieve : Method Slot := .inOrder .transmitRecieve [reference]
def parse : Method Slot := .inOrder .parse [pointer, pointer, pointer]

def methods : List (Method Slot) :=
  [getModeData, configure, reset, start, renewRebind, release, stop, build, transmitRecieve, parse]

def interface : Interface Slot where
  order := order
  mem_order s := by cases s <;> decide
  entry := entry
  passesThis := true
  methods := methods
  fits := by decide

end DHCP4Protocol

namespace DNS4Protocol

inductive Slot where
  | getModeData | configure | hostnameToIp | ipToHostname | generalLookup | updateDnsCache | poll
  | cancel
deriving DecidableEq

def order : List Slot :=
  [.getModeData, .configure, .hostnameToIp, .ipToHostname, .generalLookup, .updateDnsCache, .poll,
    .cancel]

def entry : Slot → Entry
  | .getModeData => .function [pointer]
  | .configure => .function [pointer]
  | .hostnameToIp => .function [pointer, pointer]
  | .ipToHostname => .function [ipv4Address, pointer]
  | .generalLookup => .function [pointer, uint16, uint16, pointer]
  | .updateDnsCache => .function [bool, bool, dns4CacheEntry]
  | .poll => .function []
  | .cancel => .function [pointer]

def getModeData : Method Slot := .inOrder .getModeData [pointer]
def configure : Method Slot := .inOrder .configure [reference]
def reset : Method Slot := resetOf .configure
def hostnameToIp : Method Slot := .inOrder .hostnameToIp [pointer, pointer]
def ipToHostname : Method Slot := .inOrder .ipToHostname [ipv4Address, pointer]
def generalLookup : Method Slot := .inOrder .generalLookup [pointer, uint16, uint16, pointer]
def updateDnsCache : Method Slot := .inOrder .updateDnsCache [bool, bool, dns4CacheEntry]
def poll : Method Slot := .inOrder .poll []
def cancel : Method Slot := .inOrder .cancel [pointer]

def methods : List (Method Slot) :=
  [getModeData, configure, reset, hostnameToIp, ipToHostname, generalLookup, updateDnsCache, poll,
    cancel]

def interface : Interface Slot where
  order := order
  mem_order s := by cases s <;> decide
  entry := entry
  passesThis := true
  methods := methods
  fits := by decide

end DNS4Protocol

namespace Tcp4Protocol

inductive Slot where
  | getModeData | configure | routes | connect | accept | transmit | receive | close | cancel | poll
deriving DecidableEq

def order : List Slot :=
  [.getModeData, .configure, .routes, .connect, .accept, .transmit, .receive, .close, .cancel,
    .poll]

def entry : Slot → Entry
  | .getModeData => .function [pointer, pointer, pointer, pointer, pointer]
  | .configure => .function [pointer]
  | .routes => .function [bool, reference, reference, reference]
  | .connect => .function [pointer]
  | .accept => .function [pointer]
  | .transmit => .function [pointer]
  | .receive => .function [pointer]
  | .close => .function [pointer]
  | .cancel => .function [pointer]
  | .poll => .function []

def getModeData : Method Slot := .inOrder .getModeData [pointer, pointer, pointer, pointer, pointer]
def configure : Method Slot := .inOrder .configure [reference]
def reset : Method Slot := resetOf .configure
def addRoute : Method Slot := addRouteOf .routes
def deleteRoute : Method Slot := deleteRouteOf .routes
def connect : Method Slot := .inOrder .connect [pointer]
def accept : Method Slot := .inOrder .accept [pointer]
def transmit : Method Slot := .inOrder .transmit [pointer]
def receive : Method Slot := .inOrder .receive [pointer]
def close : Method Slot := .inOrder .close [pointer]
def cancel : Method Slot := .inOrder .cancel [pointer]
def poll : Method Slot := .inOrder .poll []

def methods : List (Method Slot) :=
  [getModeData, configure, reset, addRoute, deleteRoute, connect, accept, transmit, receive, close,
    cancel, poll]

def interface : Interface Slot where
  order := order
  mem_order s := by cases s <;> decide
  entry := entry
  passesThis := true
  methods := methods
  fits := by decide

end Tcp4Protocol

end MuchCoolEfi.Net.Protocols
