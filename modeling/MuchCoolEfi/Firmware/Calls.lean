import MuchCoolEfi.Cxx.Run
import MuchCoolEfi.Firmware.Console
import MuchCoolEfi.Firmware.Files
import MuchCoolEfi.Firmware.Services
import MuchCoolEfi.Net.Protocols

/-! # What clients can make the firmware do

All interfaces together. Whatever a client does, it reaches the firmware by requests of them: methods and
their overloads. Two overloads are the same to the firmware only where one is a shorthand for cases of
the other (`same_call_iff`), and all else can be told from the calls (`requests_decode`).

A run uses any number of objects of any classes, and between two requests, memory may change. It ends
with a request that does not return. While no table changes, every call goes to the function its table
held in the beginning, at a known place, and the protocols get the object (`trace_run`). -/

namespace MuchCoolEfi.Firmware.Calls

open MuchCoolEfi.Cxx.Storage MuchCoolEfi.Cxx.LittleEndian MuchCoolEfi.Cxx.Contiguous
open MuchCoolEfi.Cxx.Run MuchCoolEfi.Cxx.FlatMemory MuchCoolEfi.Cxx.Forwarding
open MuchCoolEfi.Cxx.Tables MuchCoolEfi.Cxx.Tables.Interface
open MuchCoolEfi.Firmware.Services MuchCoolEfi.Firmware.Console MuchCoolEfi.Firmware.Files
open MuchCoolEfi.Net.Protocols

/-! ### All interfaces -/

inductive Protocol where
  | bootServices | runtimeServices | simpleTextInputProtocol | simpleTextOutputProtocol
  | simpleTextInputExProtocol | simplePointerProtocol | absolutePointerProtocol | serialIOProtocol
  | graphicsOutputProtocol | edidOverrideProtocol | loadFileProtocol | loadFile2Protocol
  | simpleFileSystemProtocol | fileProtocol | fileProtocol2 | diskIOProtocol | blockIOProtocol
  | eraseBlockProtocol | debugSupportProtocol | debugPortProtocol | simpleNetworkProtocol
  | managedNetworkProtocol | ipv4Protocol | arpProtocol | dhcp4Protocol | dns4Protocol
  | tcp4Protocol
deriving DecidableEq

namespace Protocol

/-- The members of the class. -/
abbrev Slot : Protocol → Type
  | bootServices => BootServices.Slot
  | runtimeServices => RuntimeServices.Slot
  | simpleTextInputProtocol => SimpleTextInputProtocol.Slot
  | simpleTextOutputProtocol => SimpleTextOutputProtocol.Slot
  | simpleTextInputExProtocol => SimpleTextInputExProtocol.Slot
  | simplePointerProtocol => SimplePointerProtocol.Slot
  | absolutePointerProtocol => AbsolutePointerProtocol.Slot
  | serialIOProtocol => SerialIOProtocol.Slot
  | graphicsOutputProtocol => GraphicsOutputProtocol.Slot
  | edidOverrideProtocol => EdidOverrideProtocol.Slot
  | loadFileProtocol => LoadFileProtocol.Slot
  | loadFile2Protocol => LoadFile2Protocol.Slot
  | simpleFileSystemProtocol => SimpleFileSystemProtocol.Slot
  | fileProtocol => FileProtocol.Slot
  | fileProtocol2 => FileProtocol2.Slot
  | diskIOProtocol => DiskIOProtocol.Slot
  | blockIOProtocol => BlockIOProtocol.Slot
  | eraseBlockProtocol => EraseBlockProtocol.Slot
  | debugSupportProtocol => DebugSupportProtocol.Slot
  | debugPortProtocol => DebugPortProtocol.Slot
  | simpleNetworkProtocol => SimpleNetworkProtocol.Slot
  | managedNetworkProtocol => ManagedNetworkProtocol.Slot
  | ipv4Protocol => Ipv4Protocol.Slot
  | arpProtocol => ArpProtocol.Slot
  | dhcp4Protocol => DHCP4Protocol.Slot
  | dns4Protocol => DNS4Protocol.Slot
  | tcp4Protocol => Tcp4Protocol.Slot

instance decidableEqSlot : (p : Protocol) → DecidableEq p.Slot
  | bootServices | runtimeServices | simpleTextInputProtocol | simpleTextOutputProtocol
  | simpleTextInputExProtocol | simplePointerProtocol | absolutePointerProtocol
  | serialIOProtocol | graphicsOutputProtocol | edidOverrideProtocol | loadFileProtocol
  | loadFile2Protocol | simpleFileSystemProtocol | fileProtocol | fileProtocol2 | diskIOProtocol
  | blockIOProtocol | eraseBlockProtocol | debugSupportProtocol | debugPortProtocol
  | simpleNetworkProtocol | managedNetworkProtocol | ipv4Protocol | arpProtocol | dhcp4Protocol
  | dns4Protocol | tcp4Protocol =>
    inferInstance

def interface : (p : Protocol) → Interface p.Slot
  | bootServices => BootServices.interface
  | runtimeServices => RuntimeServices.interface
  | simpleTextInputProtocol => SimpleTextInputProtocol.interface
  | simpleTextOutputProtocol => SimpleTextOutputProtocol.interface
  | simpleTextInputExProtocol => SimpleTextInputExProtocol.interface
  | simplePointerProtocol => SimplePointerProtocol.interface
  | absolutePointerProtocol => AbsolutePointerProtocol.interface
  | serialIOProtocol => SerialIOProtocol.interface
  | graphicsOutputProtocol => GraphicsOutputProtocol.interface
  | edidOverrideProtocol => EdidOverrideProtocol.interface
  | loadFileProtocol => LoadFileProtocol.interface
  | loadFile2Protocol => LoadFile2Protocol.interface
  | simpleFileSystemProtocol => SimpleFileSystemProtocol.interface
  | fileProtocol => FileProtocol.interface
  | fileProtocol2 => FileProtocol2.interface
  | diskIOProtocol => DiskIOProtocol.interface
  | blockIOProtocol => BlockIOProtocol.interface
  | eraseBlockProtocol => EraseBlockProtocol.interface
  | debugSupportProtocol => DebugSupportProtocol.interface
  | debugPortProtocol => DebugPortProtocol.interface
  | simpleNetworkProtocol => SimpleNetworkProtocol.interface
  | managedNetworkProtocol => ManagedNetworkProtocol.interface
  | ipv4Protocol => Ipv4Protocol.interface
  | arpProtocol => ArpProtocol.interface
  | dhcp4Protocol => DHCP4Protocol.interface
  | dns4Protocol => DNS4Protocol.interface
  | tcp4Protocol => Tcp4Protocol.interface

end Protocol

/-! ### Which calls -/

theorem regular (p : Protocol) : p.interface.Regular := by
  refine ⟨?_, ?_, ?_⟩ <;> cases p <;> decide

/-- The methods that make only calls another method makes. -/
def shorthands : (p : Protocol) → List (Method p.Slot × Method p.Slot)
  | .bootServices => [(BootServices.exit, BootServices.exitNoData),
    (BootServices.locateHandleBuffer, BootServices.locateHandleBufferAll),
    (BootServices.locateHandleBuffer, BootServices.locateHandleBufferByProtocol),
    (BootServices.locateHandleBuffer, BootServices.locateHandleBufferByKey),
    (BootServices.setWatchdogTimer, BootServices.setWatchdogTimerOnly)]
  | .runtimeServices => [(RuntimeServices.resetSystem, RuntimeServices.resetSystemData)]
  | .ipv4Protocol => [(Ipv4Protocol.configure, Ipv4Protocol.reset)]
  | _ => []

/-- The overloads that make only calls another overload makes. -/
def overlaps (p : Protocol) : List (Overload p.Slot × Overload p.Slot) :=
  (shorthands p).map (fun o => (.method o.1, .method o.2)) ++
    match p with
    | .bootServices => [(.method BootServices.stall, .conversion BootServices.stallSeconds)]
    | _ => []

theorem meets_iff (p : Protocol) : ∀ o ∈ p.interface.overloads, ∀ o' ∈ p.interface.overloads,
    o.Meets o' ↔ o = o' ∨ (o, o') ∈ overlaps p ∨ (o', o) ∈ overlaps p := by
  cases p <;> decide

/-- **Which requests are the same to the firmware**: two overloads may make the same call only where one
is a shorthand for cases of the other. -/
theorem same_call_iff (p : Protocol) {o o' : Overload p.Slot} (ho : o ∈ p.interface.overloads)
    (ho' : o' ∈ p.interface.overloads) :
    (∃ c, (∃ given, o.call? given = some c) ∧ ∃ given, o'.call? given = some c) ↔
      o = o' ∨ (o, o') ∈ overlaps p ∨ (o', o) ∈ overlaps p :=
  ((regular p).shares_iff ho ho').trans (meets_iff p o ho o' ho')

/-- Stalling for some seconds is stalling for some microseconds. -/
theorem same_call_iff_stall : ∃ c,
    (∃ given, (Overload.method BootServices.stall).call? given = some c) ∧
      ∃ given, (Overload.conversion BootServices.stallSeconds).call? given = some c :=
  (same_call_iff .bootServices (by decide) (by decide)).mpr (Or.inr (Or.inl (by decide)))

/-- The methods that are no shorthands. -/
def plain (p : Protocol) : List (Method p.Slot) :=
  p.interface.methods.filter fun m => m ∉ (shorthands p).map Prod.snd

theorem covers (p : Protocol) : Invocation.Covers (plain p) p.interface := by
  refine ⟨?_, ?_, ?_, ?_, ?_⟩ <;> cases p <;> decide

/-- **What clients asked for can be told from the calls**: whatever the requests were, there is exactly
one sequence of methods that are no shorthands, with values for all their parameters, that makes the
same calls. -/
theorem requests_decode (p : Protocol) (s : Script p.interface) :
    ∃! xs : List (Invocation (plain p)), Returning Invocation.returns xs ∧
      xs.map Invocation.call = s.requests.map Request.call :=
  Invocation.existsUnique_calls (regular p) (covers p) s

/-! ### Runs -/

/-- A request of an object, and what happens to the memory from there to the next. -/
structure Use where
  protocol : Protocol
  object : Pointer
  request : protocol.interface.Request
  effect : Flat → Flat

namespace Use

/-- What the request calls. -/
def activation (u : Use) (m : Flat) : Activation := u.request.activation u.object m

/-- The bytes of the object. -/
def bytes (u : Use) (m : Flat) : Bytes u.protocol.interface.cls.size :=
  readAt u.protocol.interface.cls.size u.object m

end Use

/-- What is called, one call after the other. What does not return is the last. -/
def trace : Flat → List Use → List Activation
  | _, [] => []
  | m, u :: us => u.activation m :: if u.request.returns then trace (u.effect m) us else []

/-- The uses that happen: nothing follows what does not return. -/
def reached : List Use → List Use
  | [] => []
  | u :: us => u :: if u.request.returns then reached us else []

/-- What the step does leaves all objects of the run alone. -/
def Keeps (us : List Use) (m : Flat) (u : Use) : Prop := ∀ v ∈ us, v.bytes (u.effect m) = v.bytes m

/-- Calls go where the tables led before the run. -/
theorem trace_eq (ws : List Use) : ∀ (us : List Use) (m : Flat), (∀ u ∈ reached us, u ∈ ws) →
    Allowed (fun m u => u.effect m) (Keeps ws) m (reached us) →
      trace m us = (reached us).map fun u => u.activation m
  | [], _, _, _ => rfl
  | u :: us, m, hs, h => by
    rw [reached] at hs h
    rw [trace, reached, List.map_cons]
    refine congrArg _ ?_
    cases hr : u.request.returns with
    | false => rfl
    | true =>
      rw [hr] at hs h
      obtain ⟨hk, ha⟩ := h
      have hws : ∀ v ∈ reached us, v ∈ ws := fun v hv => hs v (List.mem_cons_of_mem u hv)
      have ih := trace_eq ws us (u.effect m) hws ha
      refine ih.trans (List.map_congr_left fun v hv => ?_)
      exact v.request.activation_congr (hk v (hws v hv))

/-! ### Where the pointers lie, and who gets the object -/

/-- The classes for which clients do not pass the object on. -/
def Protocol.isService : Protocol → Bool
  | bootServices | runtimeServices => true
  | _ => false

theorem passesThis_eq (p : Protocol) : p.interface.passesThis = !p.isService := by
  cases p <;> rfl

/-- What is left before the functions, once 8 bytes are taken off for each member: the first member of a
service has 24. -/
def Protocol.start (p : Protocol) : ℕ := if p.isService then 16 else 0

/-- **The pointers lie one after the other**, whatever comes before them. -/
theorem offset_eq (p : Protocol) {s : p.Slot} (h : (p.interface.entry s).params.isSome) :
    p.interface.offset s = p.start + 8 * p.interface.order.idxOf s := by
  have hall : ∀ s ∈ p.interface.order, (p.interface.entry s).params.isSome →
      p.interface.offset s = p.start + 8 * p.interface.order.idxOf s := by
    cases p <;> decide
  exact hall s (p.interface.mem_order s) h

/-- Where the pointer to the function that a request calls lies. -/
def Use.pointerAt (u : Use) : Pointer :=
  u.object + UInt64.ofNat (u.protocol.start +
    8 * u.protocol.interface.order.idxOf u.request.call.slot)

/-- The arguments of the function: the object, if it takes it, and those of the call. -/
def Use.args (u : Use) : List Value :=
  if u.protocol.interface.passesThis then .word u.object :: u.request.call.args
  else u.request.call.args

theorem Use.args_eq (u : Use) : u.args =
    if u.protocol.isService then u.request.call.args
    else .word u.object :: u.request.call.args := by
  unfold Use.args
  rw [passesThis_eq]
  cases u.protocol.isService <;> rfl

theorem Use.activation_eq (u : Use) (m : Flat) :
    u.activation m = ⟨loadU64 (readAt 8 u.pointerAt m), u.args⟩ := by
  obtain ⟨params, hp, -⟩ := u.request.has
  have ho := offset_eq u.protocol (s := u.request.call.slot) (by rw [hp]; rfl)
  unfold Use.activation Request.activation Use.pointerAt
  rw [ho]
  rfl

/-- **Every call goes where the tables led before the run**, in runs that use any number of objects, while
nothing writes to them, and up to the first request that does not return. The pointers lie in the order of
the declarations, and the functions of all but the services get the object first. -/
theorem trace_run (us : List Use) (m : Flat)
    (h : Allowed (fun m u => u.effect m) (Keeps (reached us)) m (reached us)) :
    trace m us = (reached us).map fun u =>
      ⟨loadU64 (readAt 8 u.pointerAt m),
        if u.protocol.isService then u.request.call.args
        else .word u.object :: u.request.call.args⟩ := by
  rw [trace_eq (reached us) us m (fun _ hu => hu) h]
  refine List.map_congr_left fun u _ => ?_
  rw [u.activation_eq m, u.args_eq]

/-- Join the group at `0x2000`; meanwhile something writes to `0x9000`. -/
def joinGroup : Use :=
  ⟨.managedNetworkProtocol, 0x1000,
    ⟨.method ManagedNetworkProtocol.joinGroup, by decide, [.word 0x2000], by decide⟩,
    writeAt 0x9000 (.singleton 1)⟩

/-- Reset the system, without data. -/
def resetSystem : Use :=
  ⟨.runtimeServices, 0x4000,
    ⟨.method RuntimeServices.resetSystem, by decide, [.word 2, .word 0], by decide⟩,
    writeAt 0x9000 (.singleton 2)⟩

theorem joinGroup_size : joinGroup.protocol.interface.cls.size = 64 := by decide

theorem resetSystem_size : resetSystem.protocol.interface.cls.size = 136 := by decide +kernel

/-- Nothing that ends before `0x9000` is touched. -/
theorem readAt_of_before {n : ℕ} {p : Pointer} (h : p.toNat + n ≤ 0x9000) (w : Bytes 1) (m : Flat) :
    readAt n p (writeAt 0x9000 w m) = readAt n p m :=
  readAt_writeAt_of_apart ⟨0x9000, by decide⟩ w m (q := ⟨p, by omega⟩) (Or.inl h)

theorem keeps_of_write (w : Bytes 1) (m : Flat) :
    ∀ v ∈ [joinGroup, resetSystem], v.bytes (writeAt 0x9000 w m) = v.bytes m := by
  intro v hv
  rcases List.mem_cons.mp hv with rfl | hv
  · refine readAt_of_before ?_ w m
    rw [joinGroup_size]
    decide
  · obtain rfl := List.mem_singleton.mp hv
    refine readAt_of_before ?_ w m
    rw [resetSystem_size]
    decide

/-- What would follow the reset is not called. -/
theorem trace_run_two :
    trace UInt64.toUInt8 [joinGroup, resetSystem, joinGroup] =
      [⟨loadU64 (readAt 8 0x1018 UInt64.toUInt8), [.word 0x1000, .word 1, .word 0x2000]⟩,
        ⟨loadU64 (readAt 8 0x4068 UInt64.toUInt8), [.word 2, .word 0, .word 0, .word 0]⟩] := by
  have h := trace_run [joinGroup, resetSystem, joinGroup] UInt64.toUInt8
    ⟨keeps_of_write (.singleton 1) _, keeps_of_write (.singleton 2) _, trivial⟩
  exact h.trans rfl

end MuchCoolEfi.Firmware.Calls
