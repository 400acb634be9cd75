import MuchCoolEfi.Cxx.LittleEndian
import MuchCoolEfi.Cxx.Layout
import MuchCoolEfi.Cxx.Effect
import MuchCoolEfi.Cxx.Run
import MuchCoolEfi.Cxx.Contiguous
import MuchCoolEfi.Cxx.Parts
import MuchCoolEfi.Cxx.Record
import MuchCoolEfi.Cxx.Chain
import MuchCoolEfi.Cxx.FlatMemory
import MuchCoolEfi.Cxx.Trailing
import MuchCoolEfi.Cxx.Provenance
import MuchCoolEfi.Cxx.Binary32
import MuchCoolEfi.Cxx.Rounding
import MuchCoolEfi.Cxx.Scaling
import MuchCoolEfi.Cxx.Forwarding
import MuchCoolEfi.Cxx.Tables
import MuchCoolEfi.Core.StatusCode
import MuchCoolEfi.Core.Guids
import MuchCoolEfi.Core.Flags
import MuchCoolEfi.Configuration.Lookup
import MuchCoolEfi.Configuration.Report
import MuchCoolEfi.Configuration.Walk
import MuchCoolEfi.Configuration.Search
import MuchCoolEfi.Configuration.Session
import MuchCoolEfi.Configuration.Refinement
import MuchCoolEfi.Net.Addresses
import MuchCoolEfi.Net.History
import MuchCoolEfi.Net.Fragments
import MuchCoolEfi.Net.Protocols
import MuchCoolEfi.DevicePath.Vendor
import MuchCoolEfi.DevicePath.Image
import MuchCoolEfi.DevicePath.Nodes
import MuchCoolEfi.Firmware.Services
import MuchCoolEfi.Firmware.Stall
import MuchCoolEfi.Firmware.Console
import MuchCoolEfi.Firmware.Files
import MuchCoolEfi.Firmware.Calls
import MuchCoolEfi.Firmware.Client
import MuchCoolEfi.Firmware.Objects
