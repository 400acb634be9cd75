import Mathlib.Data.Set.List
import MuchCoolEfi.Cxx.FlatMemory
import MuchCoolEfi.Cxx.Forwarding

/-! # Tables of functions

An `Interface` is a class whose members are pointers to functions and other data, and the methods that
forward to these. Clients make requests of it: a method or another overload, and arguments for it.

* `Request.has`: every function called gets arguments of the types of its parameters.
* `shares_iff`: which overloads may make the same call.
* `Invocation.existsUnique_calls`: what was asked for, as far as the calls show it.
* `Request.activation_congr`: each call goes through the pointer in the table, so the bytes of the table
  decide where. -/

namespace MuchCoolEfi.Cxx.Tables

open MuchCoolEfi.Cxx.Storage MuchCoolEfi.Cxx.Layout MuchCoolEfi.Cxx.LittleEndian
open MuchCoolEfi.Cxx.Contiguous MuchCoolEfi.Cxx.Parts MuchCoolEfi.Cxx.Record
open MuchCoolEfi.Cxx.FlatMemory MuchCoolEfi.Cxx.Forwarding
open MuchCoolEfi.Cxx.Record.ClassType (typeOf field)

/-! ### Functions and what they want -/

/-- A member of a table: some data, or a function with parameters. -/
inductive Entry where
  | data (t : MemberType)
  | function (params : List ParamType)

namespace Entry

def type : Entry → MemberType
  | data t => t
  | function _ => .pointer

/-- The parameters, if it is a function. -/
def params : Entry → Option (List ParamType)
  | data _ => none
  | function us => some us

end Entry

/-- The argument may be passed where `u` is wanted. -/
def FitsAs (params : List ParamType) : Arg → ParamType → Prop
  | .const v, u => u.Has v
  | .param i, u => ∃ t ∈ params[i]?, t.PassesAs u

instance (params : List ParamType) : (a : Arg) → (u : ParamType) → Decidable (FitsAs params a u)
  | .const _, _ => inferInstanceAs (Decidable (ParamType.Has _ _))
  | .param _, _ => inferInstanceAs (Decidable (∃ t ∈ _, _))

variable {S : Type} {m : Method S} {vs : List Value}

/-- What the method passes fits the parameters of the function it calls. -/
def Fits (m : Method S) (entry : S → Entry) : Prop :=
  ∃ us ∈ (entry m.slot).params, List.Forall₂ (FitsAs m.params) m.args us

instance (m : Method S) (entry : S → Entry) : Decidable (Fits m entry) :=
  inferInstanceAs (Decidable (∃ us ∈ _, _))

/-- The function wants the one integer that a conversion passes. -/
def Converts (x : Conversion S) (entry : S → Entry) : Prop := (entry x.slot).params = some [.uint64]

instance (x : Conversion S) (entry : S → Entry) : Decidable (Converts x entry) :=
  inferInstanceAs (Decidable (_ = _))

/-- **A function gets values of the types of its parameters.** -/
theorem has_of_fits {us : List ParamType} (hf : List.Forall₂ (FitsAs m.params) m.args us)
    (h : m.Conforms vs) : List.Forall₂ ParamType.Has us (m.call vs).args := by
  refine List.forall₂_map_right_iff.mpr (List.Forall₂.imp (fun u a ha => ?_) hf.flip)
  rcases a with v | i
  · exact ha
  · obtain ⟨t, ht, hp⟩ := ha
    exact hp.has (h.has ht)

/-! ### Interfaces -/

/-- A class with functions, its members in their order, and the methods that call them. -/
structure Interface (S : Type) where
  order : List S
  mem_order : ∀ s, s ∈ order
  entry : S → Entry
  /-- Every function gets the address of the object before all other arguments. -/
  passesThis : Bool
  methods : List (Method S)
  conversions : List (Conversion S) := []
  fits : (∀ m ∈ methods, Fits m entry) ∧ ∀ x ∈ conversions, Converts x entry

namespace Interface

variable (I : Interface S)

def cls : ClassType := ⟨none, I.order.map fun s => (I.entry s).type⟩

section Layout

variable [DecidableEq S]

def member (s : S) : I.cls.Member :=
  ⟨I.order.idxOf s, by
    have h := List.idxOf_lt_length_of_mem (I.mem_order s)
    show I.order.idxOf s < (I.order.map _).length
    rw [List.length_map]
    exact h⟩

def offset (s : S) : ℕ := (field (I.member s)).offset

theorem typeOf_member (s : S) : typeOf (I.member s) = (I.entry s).type := by
  have h := List.idxOf_lt_length_of_mem (I.mem_order s)
  have hm : typeOf (I.member s) = (I.entry (I.order.get ⟨I.order.idxOf s, h⟩)).type :=
    List.getElem_map _
  rw [hm, List.get_eq_getElem, List.getElem_idxOf h]

/-- The pointer to a function. -/
def functionField {s : S} {us : List ParamType} (h : I.entry s = .function us) :
    Field I.cls.size 8 where
  offset := I.offset s
  fits := by
    have hf := (field (I.member s)).fits
    have ht : typeOf (I.member s) = .pointer := by
      rw [typeOf_member, h]
      rfl
    have hs := congrArg (fun t : MemberType => t.layout.size) ht
    change (typeOf (I.member s)).layout.size = 8 at hs
    unfold offset
    omega

end Layout

/-! ### Requests -/

/-- What clients may call. -/
def overloads : List (Overload S) := I.methods.map .method ++ I.conversions.map .conversion

variable {I}

theorem mem_overloads_method {m : Method S} : .method m ∈ I.overloads ↔ m ∈ I.methods := by
  simp [overloads]

theorem mem_overloads_conversion {x : Conversion S} :
    .conversion x ∈ I.overloads ↔ x ∈ I.conversions := by
  simp [overloads]

variable (I)

/-- What a client asks for: an overload, and arguments it accepts. -/
structure Request where
  overload : Overload S
  offered : overload ∈ I.overloads
  given : List Value
  accepted : (overload.call? given).isSome

variable {I}

namespace Request

variable (r : I.Request)

/-- The call that is made. -/
def call : Call S := (r.overload.call? r.given).get r.accepted

theorem call?_eq : r.overload.call? r.given = some r.call := (Option.some_get r.accepted).symm

/-- What follows the request may be reached. -/
def returns : Bool := r.overload.returns

/-- **Every function gets arguments of the types of its parameters.** -/
theorem has : ∃ us, I.entry r.call.slot = .function us ∧
    List.Forall₂ ParamType.Has us r.call.args := by
  have hfun {s : S} {us : List ParamType} (h : (I.entry s).params = some us) :
      I.entry s = .function us := by
    rcases he : I.entry s with t | ws
    · rw [he] at h
      cases h
    · rw [he] at h
      rw [Option.some_inj.mp h]
  have ho := r.offered
  have hc := r.call?_eq
  rcases hr : r.overload with m | x
  · rw [hr] at ho hc
    obtain ⟨ha, he⟩ := Overload.call?_method.mp hc
    obtain ⟨us, hus, hf⟩ := I.fits.1 m (mem_overloads_method.mp ho)
    rw [← he]
    exact ⟨us, hfun hus, has_of_fits hf ha⟩
  · rw [hr] at ho hc
    obtain ⟨n, he⟩ := Overload.eq_of_conversion hc
    rw [he]
    exact ⟨_, hfun (I.fits.2 x (mem_overloads_conversion.mp ho)), .cons n.toNat_lt .nil⟩

end Request

/-! ### Overloads that share calls -/

/-- Every parameter of a method is passed once, and what a conversion calls is otherwise called by
methods that pass on one integer, 0 among them. -/
structure Regular (I : Interface S) : Prop where
  linear : ∀ m ∈ I.methods, m.Linear
  direct : ∀ x ∈ I.conversions, ∀ m ∈ I.methods, m.slot = x.slot → Overload.Direct x m
  zero : ∀ x ∈ I.conversions, x.call? (.ofBits 0) = some ⟨x.slot, [.word 0]⟩

namespace Regular

variable (hI : I.Regular)
include hI

theorem exists_zero {x : Conversion S} (hx : .conversion x ∈ I.overloads) :
    ∃ given, (Overload.conversion x).call? given = some ⟨x.slot, [.word 0]⟩ :=
  ⟨[.word 0], hI.zero x (mem_overloads_conversion.mp hx)⟩

theorem exists_method_iff {m : Method S} (hm : .method m ∈ I.overloads) (c : Call S) :
    (∃ given, (Overload.method m).call? given = some c) ↔ m.Makes c :=
  Overload.exists_method_iff (hI.linear m (mem_overloads_method.mp hm))

theorem shares_conversion_iff {x : Conversion S} {m : Method S} (hx : .conversion x ∈ I.overloads)
    (hm : .method m ∈ I.overloads) :
    (Overload.conversion x).Shares (.method m) ↔ x.slot = m.slot := by
  constructor
  · rintro ⟨c, ⟨given, hc⟩, given', hc'⟩
    exact (Overload.slot_of_call? hc).symm.trans (Overload.slot_of_call? hc')
  · intro h
    have hd := hI.direct x (mem_overloads_conversion.mp hx) m (mem_overloads_method.mp hm) h.symm
    exact ⟨_, hI.exists_zero hx, (hI.exists_method_iff hm _).mpr (hd.makes 0)⟩

/-- **Whether two overloads may make the same call**: of methods it is read off what they pass, and a
conversion shares calls with all that call the same function. -/
theorem shares_iff : ∀ {o o' : Overload S}, o ∈ I.overloads → o' ∈ I.overloads →
    (o.Shares o' ↔ o.Meets o')
  | .method m, .method m', h, h' => by
    refine Iff.trans (exists_congr fun c => ?_) Method.exists_makes_iff
    rw [hI.exists_method_iff h, hI.exists_method_iff h']
  | .conversion x, .method m, h, h' => hI.shares_conversion_iff h h'
  | .method m, .conversion x, h, h' => by
    have hx := hI.shares_conversion_iff h' h
    exact (exists_congr fun c => and_comm).trans (hx.trans eq_comm)
  | .conversion x, .conversion x', h, h' => by
    constructor
    · rintro ⟨c, ⟨given, hc⟩, given', hc'⟩
      exact (Overload.slot_of_call? hc).symm.trans (Overload.slot_of_call? hc')
    · intro hs
      have hs : x.slot = x'.slot := hs
      exact ⟨_, hI.exists_zero h, hs ▸ hI.exists_zero h'⟩

end Regular

/-! ### Requests read back -/

/-- Only the last may be one that does not return. -/
def Returning {α : Type*} (returns : α → Bool) (as : List α) : Prop := ∀ a ∈ as.dropLast, returns a

/-- Requests one after the other. -/
structure Script (I : Interface S) where
  requests : List I.Request
  returning : Returning Request.returns requests

/-- A method of the list, and values for all its parameters. -/
@[ext] structure Invocation (ms : List (Method S)) where
  method : Method S
  listed : method ∈ ms
  values : List Value
  conforms : method.Conforms values

namespace Invocation

variable {ms : List (Method S)}

def call (x : Invocation ms) : Call S := x.method.call x.values

def returns (x : Invocation ms) : Bool := x.method.returns

/-- Whatever an overload of the interface does, a method of the list does. -/
structure Covers (ms : List (Method S)) (I : Interface S) : Prop where
  linear : ∀ m ∈ ms, m.Linear
  meets : ∀ m ∈ ms, ∀ m' ∈ ms, m.Meets m' → m = m'
  methods : ∀ m ∈ I.methods, m ∈ ms ∨ ∃ m' ∈ ms, m.Within m'
  conversions : ∀ x ∈ I.conversions, ∃ m ∈ ms, Overload.Direct x m
  returns : ∀ o ∈ I.overloads, ∀ m ∈ ms, o.slot = m.slot → o.returns = m.returns

variable (hI : I.Regular) (hms : Covers ms I)
include hms

/-- **A call shows the method and all values**, if no two methods of the list make the same call. -/
theorem call_injective : Function.Injective (call : Invocation ms → Call S) := by
  intro x y he
  obtain ⟨m, hm, vs, hv⟩ := x
  obtain ⟨m', hm', vs', hv'⟩ := y
  have hmakes := (Method.exists_call_iff (hms.linear m hm)).mp ⟨vs, hv, rfl⟩
  have hmakes' := (Method.exists_call_iff (hms.linear m' hm')).mp ⟨vs', hv', he.symm⟩
  obtain rfl : m = m' := hms.meets m hm m' hm' (Method.exists_makes_iff.mp ⟨_, hmakes, hmakes'⟩)
  exact Invocation.ext rfl ((Method.call_inj (hms.linear m hm) hv hv').mp he)

include hI

theorem exists_call (r : I.Request) : ∃ x : Invocation ms, x.call = r.call := by
  obtain ⟨m, hm, hc⟩ : ∃ m ∈ ms, m.Makes r.call := by
    have ho := r.offered
    have hc := r.call?_eq
    rcases hr : r.overload with m | x
    · rw [hr] at ho hc
      have hmakes := (hI.exists_method_iff ho r.call).mp ⟨_, hc⟩
      rcases hms.methods m (mem_overloads_method.mp ho) with hm | ⟨m', hm', hw⟩
      · exact ⟨m, hm, hmakes⟩
      · exact ⟨m', hm', hw.makes hmakes⟩
    · rw [hr] at ho hc
      obtain ⟨m, hm, hd⟩ := hms.conversions x (mem_overloads_conversion.mp ho)
      obtain ⟨n, hn⟩ := Overload.eq_of_conversion hc
      exact ⟨m, hm, hn ▸ hd.makes n⟩
  obtain ⟨vs, hv, he⟩ := (Method.exists_call_iff (hms.linear m hm)).mpr hc
  exact ⟨⟨m, hm, vs, hv⟩, he⟩

theorem exists_calls (rs : List I.Request) :
    ∃ xs : List (Invocation ms), xs.map call = rs.map Request.call := by
  refine (Set.ext_iff.mp (Set.range_list_map call) (rs.map Request.call)).mpr fun c hc => ?_
  obtain ⟨r, -, rfl⟩ := List.mem_map.mp hc
  exact exists_call hI hms r

omit hI in
/-- What makes the same calls returns where the requests do. -/
theorem returning_of_calls {xs : List (Invocation ms)} {rs : List I.Request}
    (he : xs.map call = rs.map Request.call) (h : Returning Request.returns rs) :
    Returning returns xs := by
  intro x hx
  have hcall : x.call ∈ rs.dropLast.map Request.call := by
    rw [List.map_dropLast, ← he, ← List.map_dropLast]
    exact List.mem_map_of_mem hx
  obtain ⟨r, hr, hrx⟩ := List.mem_map.mp hcall
  have hslot : r.overload.slot = x.method.slot :=
    (Overload.slot_of_call? r.call?_eq).symm.trans (congrArg Call.slot hrx)
  exact (hms.returns r.overload r.offered x.method x.listed hslot).symm.trans (h r hr)

/-- **Requests are read back from the calls**, in one way, as invocations of methods of the list. -/
theorem existsUnique_calls (s : Script I) : ∃! xs : List (Invocation ms),
    Returning returns xs ∧ xs.map call = s.requests.map Request.call := by
  have hinj := List.map_injective_iff.mpr (call_injective hms)
  obtain ⟨xs, hxs⟩ := exists_calls hI hms s.requests
  exact ⟨xs, ⟨returning_of_calls hms hxs s.returning, hxs⟩, fun ys hys => hinj (hys.2.trans hxs.symm)⟩

end Invocation

/-! ### Calls through the table -/

section Memory

variable [DecidableEq S]

/-- What a call amounts to: the address that is called, and all arguments. -/
structure Activation where
  target : Pointer
  args : List Value

/-- A request of the object at `p`. -/
def Request.activation (r : I.Request) (p : Pointer) (m : Flat) : Activation where
  target := loadU64 (readAt 8 (p + UInt64.ofNat (I.offset r.call.slot)) m)
  args := if I.passesThis then .word p :: r.call.args else r.call.args

/-- Only the bytes of the table decide what is called. -/
theorem Request.activation_congr (r : I.Request) {p : Pointer} {m m' : Flat}
    (h : readAt I.cls.size p m = readAt I.cls.size p m') : r.activation p m = r.activation p m' := by
  obtain ⟨us, hus, -⟩ := r.has
  have hr : readAt 8 (p + UInt64.ofNat (I.offset r.call.slot)) m =
      readAt 8 (p + UInt64.ofNat (I.offset r.call.slot)) m' := by
    have hm := readAt_add p (I.functionField hus) m
    have hm' := readAt_add p (I.functionField hus) m'
    exact hm.trans ((congrArg _ h).trans hm'.symm)
  unfold activation
  rw [hr]

end Memory

end Interface

end MuchCoolEfi.Cxx.Tables
