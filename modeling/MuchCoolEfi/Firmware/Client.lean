import Mathlib.Data.Set.Function
import MuchCoolEfi.Configuration.Refinement
import MuchCoolEfi.Firmware.Calls

/-! # From the system table

A client is given one pointer, to the `SystemTable`, and everything else follows from it: the lookups
read it, and its accessors lead to three consoles and two services.

A `Step` of a client is a lookup, or a request of what an accessor returns. Between the steps memory
changes, by the lookups themselves and by what the firmware does. `relied` are the bytes that decide
where a request ends up, those of the system table and of the objects used; while no step writes there,
every call goes where the memory led before the run (`calls_run`). While no request writes to the array
or to the slots either, the lookups are answered as if there were nothing else (`answers_run`). A request
that does not return ends the run; what was called before it is the same whatever would follow
(`calls_append`). -/

namespace MuchCoolEfi.Firmware.Client

open MuchCoolEfi.Cxx.LittleEndian MuchCoolEfi.Cxx.Contiguous MuchCoolEfi.Cxx.Run
open MuchCoolEfi.Cxx.FlatMemory MuchCoolEfi.Cxx.Forwarding
open MuchCoolEfi.Cxx.Tables MuchCoolEfi.Cxx.Tables.Interface
open MuchCoolEfi.Core.Guids (Guid)
open MuchCoolEfi.Configuration.Lookup (Memory)
open MuchCoolEfi.Configuration.Session MuchCoolEfi.Configuration.Refinement
open MuchCoolEfi.Firmware.Services MuchCoolEfi.Firmware.Console MuchCoolEfi.Firmware.Calls

/-! ### The accessors -/

def conInMember : systemTable.Member := ⟨4, by decide⟩
def conOutMember : systemTable.Member := ⟨6, by decide⟩
def stdErrMember : systemTable.Member := ⟨8, by decide⟩
def runtimeServicesMember : systemTable.Member := ⟨9, by decide⟩
def bootServicesMember : systemTable.Member := ⟨10, by decide⟩

/-- The accessors of `SystemTable` for an object with functions. -/
inductive Accessor where
  | conOut | conIn | stdErr | runtimeServices | bootServices
deriving DecidableEq

namespace Accessor

/-- The class of the object. -/
abbrev protocol : Accessor → Protocol
  | conOut => .simpleTextOutputProtocol
  | conIn => .simpleTextInputProtocol
  | stdErr => .simpleTextOutputProtocol
  | runtimeServices => .runtimeServices
  | bootServices => .bootServices

/-- The pointer it returns. -/
def get (this : Pointer) (m : Flat) : Accessor → Pointer
  | conOut => memberAt conOutMember this m
  | conIn => memberAt conInMember this m
  | stdErr => memberAt stdErrMember this m
  | runtimeServices => memberAt runtimeServicesMember this m
  | bootServices => memberAt bootServicesMember this m

theorem get_congr (x : Accessor) {this : Pointer} {m m' : Flat}
    (h : readAt systemTable.size this m' = readAt systemTable.size this m) :
    x.get this m' = x.get this m := by
  cases x <;> exact memberAt_congr _ h

end Accessor

/-! ### What a client relies on -/

/-- The bytes of the system table, and those of the objects that `xs` lead to. -/
def relied (this : Pointer) (xs : Set Accessor) (m : Flat) : Set Pointer :=
  {a | (∃ i < systemTable.size, a = this + UInt64.ofNat i) ∨
    ∃ x ∈ xs, ∃ i < x.protocol.interface.cls.size, a = x.get this m + UInt64.ofNat i}

section Relied

variable {this : Pointer} {xs : Set Accessor} {m m' : Flat}
  (h : Set.EqOn m' m (relied this xs m))

include h

theorem get_of_eqOn (x : Accessor) : x.get this m' = x.get this m :=
  x.get_congr (readAt_congr fun i hi => h (Or.inl ⟨i, hi, rfl⟩))

theorem readAt_object {x : Accessor} (hx : x ∈ xs) :
    readAt x.protocol.interface.cls.size (x.get this m) m' =
      readAt x.protocol.interface.cls.size (x.get this m) m :=
  readAt_congr fun i hi => h (Or.inr ⟨x, hx, i, hi, rfl⟩)

end Relied

/-! ### Steps -/

/-- What a client does: a lookup, or a request of what an accessor returns, with what happens to the
memory until the next step. -/
inductive Step where
  | lookup (c : Call)
  | ask (x : Accessor) (request : x.protocol.interface.Request) (effect : Flat → Flat)

namespace Step

/-- The accessor used. -/
def accessor : Step → Option Accessor
  | lookup _ => none
  | ask x _ _ => some x

/-- The request, of the object that the accessor returns. -/
def use (this : Pointer) (m : Flat) : Step → Option Use
  | lookup _ => none
  | ask x request effect => some ⟨x.protocol, x.get this m, request, effect⟩

/-- The memory the next step finds. -/
def after (this : Pointer) (m : Flat) : Step → Flat
  | lookup c => (exec this c m).memory
  | ask _ _ effect => effect m

/-- The step does not write to `bytes`: the slot of a lookup is elsewhere. -/
def Spares (bytes : Set Pointer) (m : Flat) : Step → Prop
  | lookup c => ∀ a ∈ bytes, 8 ≤ (a - c.entry).toNat
  | ask _ _ effect => Set.EqOn (effect m) m bytes

variable {this : Pointer} {xs : Set Accessor} {m m' : Flat}

theorem after_eqOn {bytes : Set Pointer} : ∀ {s : Step}, s.Spares bytes m →
    Set.EqOn (s.after this m) m bytes
  | lookup c, h => by
    intro a ha
    show (exec this c m).memory a = m a
    rcases exec_writes this m c with hw | ⟨p, hw⟩
    · rw [hw]
    · rw [hw]
      exact dif_neg (Nat.not_lt.mpr (h a ha))
  | ask _ _ _, h => h

theorem use_of_eqOn (h : Set.EqOn m' m (relied this xs m)) :
    ∀ s : Step, s.use this m' = s.use this m
  | lookup _ => rfl
  | ask x request effect => by
    have hx := get_of_eqOn h x
    exact congrArg (fun p => some (Use.mk x.protocol p request effect)) hx

/-- Neither the object nor its functions have moved. -/
theorem activation_of_eqOn (h : Set.EqOn m' m (relied this xs m)) {s : Step} {u : Use}
    (hx : ∀ x ∈ s.accessor, x ∈ xs) (hu : s.use this m = some u) :
    u.activation m' = u.activation m := by
  rcases s with c | ⟨x, request, effect⟩
  · cases hu
  · obtain rfl := Option.some_inj.mp hu
    exact request.activation_congr (readAt_object h (hx x rfl))

end Step

/-! ### Runs -/

/-- What is called, one call after the other. Each request finds its object anew. -/
def calls (this : Pointer) : Flat → List Step → List Activation
  | _, [] => []
  | m, s :: ss =>
    ((s.use this m).map fun u => u.activation m).toList ++ calls this (s.after this m) ss

/-- The first calls do not depend on the steps that follow. -/
theorem calls_append (this : Pointer) (ts : List Step) : ∀ (ss : List Step) (m : Flat),
    calls this m (ss ++ ts) =
      calls this m ss ++ calls this (run (fun m s => s.after this m) m ss) ts
  | [], _ => rfl
  | s :: ss, m => by
    have ih := calls_append this ts ss (s.after this m)
    rw [List.cons_append, calls, ih, calls, run, List.append_assoc]

/-- The accessors used. -/
def accessors (ss : List Step) : Set Accessor := {x | ∃ s ∈ ss, s.accessor = some x}

/-- No step writes to what the client relies on. -/
def Spared (this : Pointer) (xs : Set Accessor) (m : Flat) (ss : List Step) : Prop :=
  Allowed (fun m s => s.after this m) (fun m s => s.Spares (relied this xs m) m) m ss

theorem calls_eq (this : Pointer) (xs : Set Accessor) : ∀ (ss : List Step) (m : Flat),
    accessors ss ⊆ xs → Spared this xs m ss →
      calls this m ss = (ss.filterMap fun s => s.use this m).map fun u => u.activation m
  | [], _, _, _ => rfl
  | s :: ss, m, hxs, ⟨hs, hss⟩ => by
    have hm : Set.EqOn (s.after this m) m (relied this xs m) := Step.after_eqOn hs
    have hmem {t : Step} (ht : t ∈ ss) : ∀ x ∈ t.accessor, x ∈ xs := fun x hx =>
      hxs ⟨t, List.mem_cons_of_mem s ht, hx⟩
    have ih := calls_eq this xs ss (s.after this m) (fun x ⟨t, ht, hx⟩ => hmem ht x hx) hss
    have hrest : calls this (s.after this m) ss =
        (ss.filterMap fun s => s.use this m).map fun u => u.activation m := by
      rw [ih, List.filterMap_congr fun t _ => Step.use_of_eqOn hm t]
      refine List.map_congr_left fun u hu => ?_
      obtain ⟨t, ht, hu⟩ := List.mem_filterMap.mp hu
      exact Step.activation_of_eqOn hm (hmem ht) hu
    rw [calls, hrest]
    rcases hu : s.use this m with - | u
    · rw [List.filterMap_cons_none hu]
      rfl
    · rw [List.filterMap_cons_some hu]
      rfl

/-- **Every call goes where the system table led before the run**: through the pointer that was in the
object the accessor returned then. Lookups may come between the calls, fair or not. -/
theorem calls_run (this : Pointer) (ss : List Step) (m : Flat)
    (h : Spared this (accessors ss) m ss) :
    calls this m ss = (ss.filterMap fun s => s.use this m).map fun u =>
      ⟨loadU64 (readAt 8 u.pointerAt m), u.args⟩ := by
  rw [calls_eq this _ ss m (fun _ hx => hx) h]
  exact List.map_congr_left fun u _ => u.activation_eq m

/-! ### Lookups in between -/

/-- What the slots were told, after one more step. -/
def hear (guids : List Guid) (a : Answers) : Step → Answers
  | .lookup c => tell guids a c
  | .ask .. => a

/-- A fair lookup through one of the slots, or a request after which the system table, the array and
the slots are what they were. -/
def Step.Fair (A : Arrangement) (m : Flat) : Step → Prop
  | lookup c => A.Slotted c ∧ c.Fair A.t
  | ask _ _ effect => Set.EqOn (effect m) m A.bytes

/-- The bytes are those of some typed objects that hold the answers. -/
def Told (A : Arrangement) (start : Memory) (f : Flat) (a : Answers) : Prop :=
  ∃ s : State, A.Holds f s.memory ∧ Represents A.t start s a

theorem told_step {A : Arrangement} {start : Memory} {f : Flat} {a : Answers}
    (h : Told A start f a) : ∀ {s : Step}, s.Fair A f →
      Told A start (s.after A.this.start f) (hear (guids A.t start) a s)
  | .lookup c, ⟨hs, hf⟩ => by
    obtain ⟨s', hm, ha⟩ := h
    exact ⟨Configuration.Session.step A.t s' c, (Arrangement.exec_sim hm hs).memory, represents_step A.t ha hf⟩
  | .ask _ _ _, hk => by
    obtain ⟨s', hm, ha⟩ := h
    exact ⟨s', hm.of_eqOn hk, ha⟩

/-- **Lookups and requests of the firmware mixed**, in any order and number: a slot holds what the last
lookup through it asked for, as if there had been nothing but the lookups. -/
theorem answers_run (A : Arrangement) (ss : List Step) {f : Flat} {start : Memory}
    (h : A.Holds f start)
    (hss : Allowed (fun m s => s.after A.this.start m) (fun m s => s.Fair A m) f ss) :
    ∀ q ∈ A.slots,
      let held := loadU64 (readAt 8 q.start (run (fun m s => s.after A.this.start m) f ss))
      match run (hear (A.guidsAt f)) (fun _ => none) ss q.start with
      | some x => Denotes A.t held x
      | none => held = loadU64 (readAt 8 q.start f) := by
  rw [h.guidsAt_eq]
  have hstep (m : Flat) (a : Answers) (s : Step) (hR : Told A start m a) (hs : s.Fair A m) :
      Told A start (s.after A.this.start m) (hear (guids A.t start) a s) := told_step hR hs
  have h0 : Told A start f fun _ => none := ⟨⟨start, [], []⟩, h, represents_start A.t⟩
  obtain ⟨s', hm, ha⟩ := run_sim hstep ss _ _ h0 hss
  exact fun q hq => h.slot_told hm ha hq

/-! ### A client -/

/-- The system table at `0x1000`, its output at `0x4000`, all other bytes zero. -/
def outputAt4000 : Flat := fun a => if a = 0x1041 then 0x40 else 0

/-- Show the string at `0x3000`. -/
def showString : Protocol.simpleTextOutputProtocol.interface.Request :=
  ⟨.method SimpleTextOutputProtocol.outputString, by decide, [.word 0x3000], by decide⟩

/-- Ask for entry 3, then for a string to be shown, which writes to `0x2000` and `0x2001`. -/
def lookupThenShow : List Step :=
  [.lookup (.get 3 0x2000), .ask .conOut showString (writeAt 0x2000 (.replicate 2 1))]

theorem simpleTextOutputProtocol_size :
    Protocol.simpleTextOutputProtocol.interface.cls.size = 80 := by decide

/-- The slot and what is relied on are apart. -/
theorem relied_apart {m : Flat} (hm : Accessor.get 0x1000 m .conOut = 0x4000) :
    ∀ a ∈ relied 0x1000 (accessors lookupThenShow) m, 8 ≤ (a - 0x2000).toNat := by
  have hs : ∀ i < systemTable.size, 8 ≤ ((0x1000 : Pointer) + UInt64.ofNat i - 0x2000).toNat := by
    decide
  have ho : ∀ i < 80, 8 ≤ ((0x4000 : Pointer) + UInt64.ofNat i - 0x2000).toNat := by decide
  rintro a (⟨i, hi, rfl⟩ | ⟨x, ⟨s, hs, hx⟩, i, hi, rfl⟩)
  · exact hs i hi
  · obtain rfl : x = .conOut := by
      rcases List.mem_cons.mp hs with rfl | hs
      · cases hx
      · obtain rfl := List.mem_singleton.mp hs
        exact (Option.some_inj.mp hx).symm
    rw [hm]
    exact ho i (simpleTextOutputProtocol_size ▸ hi)

theorem writeAt_eqOn {m : Flat} (hm : Accessor.get 0x1000 m .conOut = 0x4000) :
    Set.EqOn (writeAt 0x2000 (.replicate 2 1) m) m (relied 0x1000 (accessors lookupThenShow) m) :=
  fun a h => dif_neg fun hl => absurd (relied_apart hm a h) (by omega)

theorem calls_run_one :
    calls 0x1000 outputAt4000 lookupThenShow = [⟨0, [.word 0x4000, .word 0x3000]⟩] := by
  have h := calls_run 0x1000 lookupThenShow outputAt4000
    ⟨relied_apart (by decide), writeAt_eqOn (by decide), trivial⟩
  exact h.trans rfl

/-- Look for the GUID of the entry, then for a string to be shown, which writes to `0x5000`. -/
def findThenShow : List Step :=
  [.lookup Arrangement.findZero, .ask .conOut showString (writeAt 0x5000 (.replicate 2 1))]

theorem findThenShow_fair (m : Flat) :
    Step.Fair Arrangement.oneEntry m (.ask .conOut showString (writeAt 0x5000 (.replicate 2 1))) := by
  intro a ha
  refine writeAt_of_not_covers ⟨0x5000, by decide⟩ _ m ?_
  rintro ⟨hl, -⟩
  change 0x5000 ≤ a.toNat at hl
  rcases ha with ⟨-, h⟩ | ⟨-, h⟩ | ⟨q, hq, -, h⟩
  · change a.toNat < 0x1000 + 120 at h
    omega
  · change a.toNat < 0x3000 + 24 at h
    omega
  · have hs : q.start = 0x2000 := hq
    rw [hs] at h
    change a.toNat < 0x2000 + 8 at h
    omega

theorem answers_run_one : Denotes Arrangement.oneEntry.t (loadU64 (readAt 8 0x2000
    (run (fun m s => Step.after 0x1000 m s) Arrangement.oneEntryBytes findThenShow))) (some 0) :=
  answers_run Arrangement.oneEntry findThenShow Arrangement.holds_oneEntry
    ⟨⟨Arrangement.slotted_findZero, show (0x2000 : Pointer) ≠ nullptr by decide⟩,
      findThenShow_fair _, trivial⟩ ⟨0x2000, by decide⟩ rfl

end MuchCoolEfi.Firmware.Client
