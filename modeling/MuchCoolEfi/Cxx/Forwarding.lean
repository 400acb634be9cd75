import Mathlib.Algebra.Group.Nat.Defs
import Mathlib.Data.List.Count
import Mathlib.Data.List.Duplicate
import Mathlib.Data.List.Forall2
import Mathlib.Data.List.GetD
import Mathlib.Data.List.NodupEquivFin
import MuchCoolEfi.Cxx.Binary32

/-! # Methods that forward

A method that does nothing but call one function of a table: it passes constants and its own
parameters, in an order of its choice. `Method.call` is all such methods. Where each parameter is passed
once (`Method.Linear`), the calls a method makes are known from what it passes: at every position the
constant, or any value of the parameter's type, independently (`exists_call_iff`). So for two methods it
can be decided whether they may make the same call (`exists_same_call_iff`) and whether one makes all
calls of the other (`Within.makes`), and for one method, that calls with different arguments are
different (`call_inj`).

A `Conversion` computes the one argument it passes from a `float`. It is an `Overload` of a method, and
what clients call are overloads. -/

namespace MuchCoolEfi.Cxx.Forwarding

/-! ### Values and their types -/

/-- The widths of integers; a `bool` is an integer of one bit. -/
inductive Width where
  | one | eight | sixteen | thirtyTwo | sixtyFour
deriving DecidableEq

def Width.bits : Width → ℕ
  | one => 1
  | eight => 8
  | sixteen => 16
  | thirtyTwo => 32
  | sixtyFour => 64

theorem Width.one_lt (w : Width) : 1 < 2 ^ w.bits := by
  cases w <;> decide

/-- The type of a parameter. An enumeration counts as its underlying type; a reference is passed as the
address of what it refers to. -/
inductive ParamType where
  | int (w : Width)
  | pointer
  | reference
  | object (size : ℕ)
deriving DecidableEq

/-- An argument. -/
inductive Value where
  | word (w : UInt64)
  | object (bytes : List UInt8)
deriving DecidableEq

namespace ParamType

def bool : ParamType := int .one
def uint8 : ParamType := int .eight
def uint16 : ParamType := int .sixteen
def uint32 : ParamType := int .thirtyTwo
def uint64 : ParamType := int .sixtyFour

/-- The values of a type. There is no reference to null. -/
def Has : ParamType → Value → Prop
  | int k, .word w => w.toNat < 2 ^ k.bits
  | pointer, .word _ => True
  | reference, .word w => w ≠ 0
  | object size, .object b => b.length = size
  | object _, .word _ | int _, .object _ | pointer, .object _ | reference, .object _ => False

instance decidableHas : (t : ParamType) → (v : Value) → Decidable (t.Has v)
  | int _, .word _ => inferInstanceAs (Decidable (_ < _))
  | pointer, .word _ => isTrue trivial
  | reference, .word _ => inferInstanceAs (Decidable (_ ≠ _))
  | object _, .object _ => inferInstanceAs (Decidable (_ = _))
  | object _, .word _ | int _, .object _ | pointer, .object _ | reference, .object _ => isFalse id

/-- A value that every type of words has, and one that an object has. -/
def sample : ParamType → Value
  | object size => .object (.replicate size 0)
  | _ => .word 1

theorem has_sample : ∀ t : ParamType, t.Has t.sample
  | int k => k.one_lt
  | pointer => trivial
  | reference => by decide
  | object _ => List.length_replicate

/-- The two types have a value in common. -/
def Meets : ParamType → ParamType → Prop
  | object m, object n => m = n
  | object _, _ | _, object _ => False
  | _, _ => True

instance decidableMeets : (t u : ParamType) → Decidable (t.Meets u)
  | object _, object _ => inferInstanceAs (Decidable (_ = _))
  | object _, int _ | object _, pointer | object _, reference => isFalse id
  | int _, object _ | pointer, object _ | reference, object _ => isFalse id
  | int _, int _ | int _, pointer | int _, reference => isTrue trivial
  | pointer, int _ | pointer, pointer | pointer, reference => isTrue trivial
  | reference, int _ | reference, pointer | reference, reference => isTrue trivial

theorem has_sample_of_meets : ∀ {t u : ParamType}, t.Meets u → u.Has t.sample
  | object _, object _, h => h ▸ List.length_replicate
  | int _, u, h | pointer, u, h | reference, u, h =>
    match u, h with
    | int k, _ => k.one_lt
    | pointer, _ => trivial
    | reference, _ => (by decide : (1 : UInt64) ≠ 0)

theorem meets_of_has : ∀ {t u : ParamType} {v : Value}, t.Has v → u.Has v → t.Meets u
  | object _, object _, .object _, ht, hu => ht.symm.trans hu
  | int _, u, .word _, _, hu | pointer, u, .word _, _, hu | reference, u, .word _, _, hu =>
    match u, hu with
    | int _, _ | pointer, _ | reference, _ => trivial

theorem meets_iff {t u : ParamType} : (∃ v, t.Has v ∧ u.Has v) ↔ t.Meets u :=
  ⟨fun ⟨_, ht, hu⟩ => meets_of_has ht hu, fun h => ⟨t.sample, t.has_sample, has_sample_of_meets h⟩⟩

/-- A parameter of type `t` may be passed where `u` is wanted; of a reference, the address. -/
def PassesAs (t u : ParamType) : Prop := t = u ∨ t = reference ∧ u = pointer

instance (t u : ParamType) : Decidable (t.PassesAs u) := inferInstanceAs (Decidable (_ ∨ _))

theorem PassesAs.has {t u : ParamType} (h : t.PassesAs u) {v : Value} (hv : t.Has v) : u.Has v := by
  rcases h with rfl | ⟨rfl, rfl⟩
  · exact hv
  · cases v with
    | word w => trivial
    | object b => exact hv

end ParamType

/-! ### Methods -/

/-- What a method passes at a position. -/
inductive Arg where
  | const (v : Value)
  | param (i : ℕ)
deriving DecidableEq

/-- The parameter exists, if it is one. -/
def Arg.Below (n : ℕ) : Arg → Prop
  | const _ => True
  | param i => i < n

instance (n : ℕ) : (a : Arg) → Decidable (a.Below n)
  | .const _ => isTrue trivial
  | .param _ => inferInstanceAs (Decidable (_ < _))

/-- A call of a function of a table: which function, and the arguments. -/
@[ext] structure Call (S : Type) where
  slot : S
  args : List Value
deriving DecidableEq

/-- A method that calls the function in `slot`. The last parameters may have `defaults`, and a method
declared `[[noreturn]]` never `returns`. -/
structure Method (S : Type) where
  slot : S
  params : List ParamType
  args : List Arg
  defaults : List Value := []
  returns : Bool := true
deriving DecidableEq

namespace Arg

/-- `true` or `false`. -/
abbrev flag (b : Bool) : Arg := const (.word (if b then 1 else 0))

abbrev num (w : UInt64) : Arg := const (.word w)

/-- `nullptr`. -/
abbrev null : Arg := num 0

/-- The argument, given the values of the parameters. -/
def eval (vs : List Value) : Arg → Value
  | const v => v
  | param i => vs.getD i (.word 0)

/-- The values the argument may have. -/
def Admits (params : List ParamType) : Arg → Value → Prop
  | const c, v => v = c
  | param i, v => ∃ t, params[i]? = some t ∧ t.Has v

/-- The two arguments may have the same value. -/
def Meets (params params' : List ParamType) : Arg → Arg → Prop
  | const c, const d => c = d
  | const c, param j => ∃ u ∈ params'[j]?, u.Has c
  | param i, const d => ∃ t ∈ params[i]?, t.Has d
  | param i, param j => ∃ t ∈ params[i]?, ∃ u ∈ params'[j]?, t.Meets u

instance (params params' : List ParamType) : (a b : Arg) → Decidable (a.Meets params params' b)
  | const _, const _ => inferInstanceAs (Decidable (_ = _))
  | const _, param _ => inferInstanceAs (Decidable (∃ u ∈ _, _))
  | param _, const _ => inferInstanceAs (Decidable (∃ t ∈ _, _))
  | param _, param _ => inferInstanceAs (Decidable (∃ t ∈ _, ∃ u ∈ _, _))

theorem meets_iff {params params' : List ParamType} : ∀ {a b : Arg},
    (∃ v, a.Admits params v ∧ b.Admits params' v) ↔ a.Meets params params' b
  | const c, const d => by
    constructor
    · rintro ⟨v, rfl, rfl⟩
      rfl
    · rintro rfl
      exact ⟨c, rfl, rfl⟩
  | const c, param j => by
    constructor
    · rintro ⟨v, rfl, u, hu, hv⟩
      exact ⟨u, hu, hv⟩
    · rintro ⟨u, hu, hv⟩
      exact ⟨c, rfl, u, hu, hv⟩
  | param i, const d => by
    constructor
    · rintro ⟨v, ⟨t, ht, hv⟩, rfl⟩
      exact ⟨t, ht, hv⟩
    · rintro ⟨t, ht, hv⟩
      exact ⟨d, ⟨t, ht, hv⟩, rfl⟩
  | param i, param j => by
    constructor
    · rintro ⟨v, ⟨t, ht, hv⟩, u, hu, hv'⟩
      exact ⟨t, ht, u, hu, ParamType.meets_of_has hv hv'⟩
    · rintro ⟨t, ht, u, hu, hm⟩
      obtain ⟨v, hv, hv'⟩ := ParamType.meets_iff.mpr hm
      exact ⟨v, ⟨t, ht, hv⟩, u, hu, hv'⟩

/-- Every value of the one argument is one of the other. -/
def Within (params params' : List ParamType) : Arg → Arg → Prop
  | const c, const d => c = d
  | const c, param j => ∃ u ∈ params'[j]?, u.Has c
  | param _, const _ => False
  | param i, param j => ∃ t ∈ params[i]?, ∃ u ∈ params'[j]?, t.PassesAs u

instance (params params' : List ParamType) : (a b : Arg) → Decidable (a.Within params params' b)
  | const _, const _ => inferInstanceAs (Decidable (_ = _))
  | const _, param _ => inferInstanceAs (Decidable (∃ u ∈ _, _))
  | param _, const _ => isFalse id
  | param _, param _ => inferInstanceAs (Decidable (∃ t ∈ _, ∃ u ∈ _, _))

theorem Within.admits {params params' : List ParamType} {v : Value} : ∀ {a b : Arg},
    a.Within params params' b → a.Admits params v → b.Admits params' v
  | const _, const _, h, hv => Eq.trans hv h
  | const _, param _, ⟨u, hu, hc⟩, hv => ⟨u, hu, hv ▸ hc⟩
  | param _, param _, ⟨t, ht, u, hu, hp⟩, ⟨t', ht', hv⟩ => by
    obtain rfl : t = t' := Option.some_inj.mp (ht.symm.trans ht')
    exact ⟨u, hu, hp.has hv⟩

end Arg

namespace Method

variable {S : Type} {m m' : Method S} {vs vs' : List Value} {c : Call S}

/-- The values are of the types of the parameters. -/
def Conforms (m : Method S) (vs : List Value) : Prop := List.Forall₂ ParamType.Has m.params vs

/-- Each parameter is passed once, and nothing else is. -/
def Linear (m : Method S) : Prop :=
  (∀ i < m.params.length, m.args.count (.param i) = 1) ∧ ∀ a ∈ m.args, a.Below m.params.length

instance (m : Method S) : Decidable m.Linear := inferInstanceAs (Decidable (_ ∧ _))

/-- The method that passes its parameters in their order and nothing else. -/
def inOrder (slot : S) (params : List ParamType) : Method S where
  slot := slot
  params := params
  args := (List.range params.length).map .param

/-- The method for the function in another slot. -/
def onSlot {T : Type} (f : S → T) (m : Method S) : Method T where
  slot := f m.slot
  params := m.params
  args := m.args
  defaults := m.defaults
  returns := m.returns

/-- The call the method makes. -/
def call (m : Method S) (vs : List Value) : Call S := ⟨m.slot, m.args.map (Arg.eval vs)⟩

/-- The call is one to the function, with arguments it may pass. -/
def Makes (m : Method S) (c : Call S) : Prop :=
  c.slot = m.slot ∧ List.Forall₂ (Arg.Admits m.params) m.args c.args

theorem Conforms.has (h : m.Conforms vs) {i : ℕ} {t : ParamType} (ht : m.params[i]? = some t) :
    t.Has (vs.getD i (.word 0)) := by
  have hl := h.length_eq
  obtain ⟨hi, rfl⟩ := List.getElem?_eq_some_iff.mp ht
  rw [List.getD_eq_getElem _ _ (hl ▸ hi)]
  exact h.get hi (hl ▸ hi)

/-- Where a parameter is passed. -/
def position (m : Method S) (i : ℕ) : ℕ := m.args.idxOf (.param i)

/-- The values of the parameters, as a call shows them. -/
def argsOf (m : Method S) (c : Call S) : List Value :=
  (List.range m.params.length).map fun i => c.args.getD (m.position i) (.word 0)

theorem getD_argsOf {i : ℕ} (hi : i < m.params.length) :
    (m.argsOf c).getD i (.word 0) = c.args.getD (m.position i) (.word 0) := by
  unfold argsOf
  rw [List.getD_eq_getElem _ _ (by simpa using hi), List.getElem_map, List.getElem_range]

section Linear

variable (hm : m.Linear)
include hm

theorem admits_eval (h : m.Conforms vs) {a : Arg} (ha : a ∈ m.args) :
    a.Admits m.params (a.eval vs) := by
  cases a with
  | const v => rfl
  | param i =>
    have hi := List.getElem?_eq_getElem (hm.2 _ ha)
    exact ⟨_, hi, h.has hi⟩

theorem position_lt {i : ℕ} (hi : i < m.params.length) : m.position i < m.args.length := by
  have hc := hm.1 i hi
  exact List.idxOf_lt_length_of_mem (List.count_pos_iff.mp (by omega))

/-- A parameter is passed at one position only. -/
theorem position_eq {i j : ℕ} (hi : i < m.params.length) (hj : j < m.args.length)
    (h : m.args.get ⟨j, hj⟩ = .param i) : m.position i = j := by
  have hc := hm.1 i hi
  have hp := position_lt hm hi
  have hget : m.args.get ⟨m.position i, hp⟩ = .param i := List.getElem_idxOf hp
  by_contra hne
  have hdup : List.Duplicate (.param i) m.args := by
    rw [List.duplicate_iff_exists_distinct_get]
    rcases Nat.lt_or_gt_of_ne hne with hlt | hlt
    · exact ⟨⟨_, hp⟩, ⟨_, hj⟩, hlt, hget.symm, h.symm⟩
    · exact ⟨⟨_, hj⟩, ⟨_, hp⟩, hlt, h.symm, hget.symm⟩
  have h2 := List.duplicate_iff_two_le_count.mp hdup
  omega

theorem get_position {i : ℕ} (hi : i < m.params.length) :
    m.args.get ⟨m.position i, position_lt hm hi⟩ = .param i :=
  List.getElem_idxOf (position_lt hm hi)

theorem conforms_argsOf (h : m.Makes c) : m.Conforms (m.argsOf c) := by
  refine List.forall₂_iff_get.mpr ⟨by simp [argsOf], fun i hi hi' => ?_⟩
  have hp := position_lt hm hi
  have hc : m.position i < c.args.length := h.2.length_eq ▸ hp
  obtain ⟨t, ht, hv⟩ : (Arg.param i).Admits m.params (c.args.get ⟨_, hc⟩) :=
    get_position hm hi ▸ h.2.get hp hc
  rw [List.getElem?_eq_getElem hi, Option.some_inj] at ht
  have hget := getD_argsOf (c := c) hi
  rw [List.getD_eq_getElem _ _ hi', List.getD_eq_getElem _ _ hc] at hget
  show (m.params[i]).Has (m.argsOf c)[i]
  rw [hget, ht]
  exact hv

theorem call_argsOf (h : m.Makes c) : m.call (m.argsOf c) = c := by
  have hl := h.2.length_eq
  refine Call.ext h.1.symm ?_
  show m.args.map (Arg.eval (m.argsOf c)) = c.args
  refine List.ext_getElem (by simpa using hl) fun j hj hj' => ?_
  have ha : j < m.args.length := hl ▸ hj'
  have hadm := h.2.get ha hj'
  rw [List.getElem_map]
  rcases hget : m.args.get ⟨j, ha⟩ with v | i
  · rw [hget] at hadm
    rw [List.get_eq_getElem] at hget
    rw [hget]
    exact Eq.symm hadm
  · have hi : i < m.params.length := by
      have hb := hm.2 _ (List.get_mem m.args ⟨j, ha⟩)
      rw [hget] at hb
      exact hb
    have hpos := position_eq hm hi ha hget
    rw [List.get_eq_getElem] at hget
    rw [hget]
    show (m.argsOf c).getD i _ = _
    rw [getD_argsOf hi, hpos, List.getD_eq_getElem _ _ hj']

/-- **The calls of a method** are those that have its constants and, at the other positions, any
values of the types of its parameters. -/
theorem exists_call_iff : (∃ vs, m.Conforms vs ∧ m.call vs = c) ↔ m.Makes c := by
  constructor
  · rintro ⟨vs, h, rfl⟩
    exact ⟨rfl, List.forall₂_map_right_iff.mpr (List.forall₂_same.mpr fun a ha => admits_eval hm h ha)⟩
  · intro h
    exact ⟨m.argsOf c, conforms_argsOf hm h, call_argsOf hm h⟩

/-- **Different arguments make different calls.** -/
theorem call_inj (h : m.Conforms vs) (h' : m.Conforms vs') : m.call vs = m.call vs' ↔ vs = vs' := by
  constructor
  · intro he
    have hl := h.length_eq
    have hl' := h'.length_eq
    refine List.ext_getElem (hl.symm.trans hl') fun i hi hi' => ?_
    have hn : i < m.params.length := hl ▸ hi
    have hp := position_lt hm hn
    have hargs : m.args.map (Arg.eval vs) = m.args.map (Arg.eval vs') := congrArg Call.args he
    have hj := List.map_inj_left.mp hargs _ (List.get_mem m.args ⟨_, hp⟩)
    rw [get_position hm hn] at hj
    change vs.getD i _ = vs'.getD i _ at hj
    rw [List.getD_eq_getElem _ _ hi, List.getD_eq_getElem _ _ hi'] at hj
    exact hj
  · rintro rfl
    rfl

end Linear

theorem forall₂_exists {α β γ : Type*} {R : α → γ → Prop} {S : β → γ → Prop} :
    ∀ {l : List α} {l' : List β}, (∃ vs, List.Forall₂ R l vs ∧ List.Forall₂ S l' vs) ↔
      List.Forall₂ (fun a b => ∃ v, R a v ∧ S b v) l l'
  | [], [] => ⟨fun _ => .nil, fun _ => ⟨[], .nil, .nil⟩⟩
  | [], _ :: _ => by
    constructor
    · rintro ⟨_, h, h'⟩
      cases h
      cases h'
    · intro h
      cases h
  | _ :: _, [] => by
    constructor
    · rintro ⟨_, h, h'⟩
      cases h'
      cases h
    · intro h
      cases h
  | a :: l, b :: l' => by
    have ih := @forall₂_exists _ _ _ R S l l'
    constructor
    · rintro ⟨_, h, h'⟩
      cases h with
      | cons ha hl =>
        cases h' with
        | cons hb hl' => exact .cons ⟨_, ha, hb⟩ (ih.mp ⟨_, hl, hl'⟩)
    · intro h
      cases h with
      | cons hab hll =>
        obtain ⟨v, hv, hv'⟩ := hab
        obtain ⟨vs, hl, hl'⟩ := ih.mpr hll
        exact ⟨v :: vs, .cons hv hl, .cons hv' hl'⟩

/-- The two methods may make the same call. -/
def Meets (m m' : Method S) : Prop :=
  m.slot = m'.slot ∧ List.Forall₂ (Arg.Meets m.params m'.params) m.args m'.args

instance [DecidableEq S] (m m' : Method S) : Decidable (m.Meets m') := inferInstanceAs (Decidable (_ ∧ _))

/-- **Whether two methods may make the same call** is read off what they pass. -/
theorem exists_makes_iff : (∃ c, m.Makes c ∧ m'.Makes c) ↔ m.Meets m' := by
  unfold Makes Meets
  constructor
  · rintro ⟨c, ⟨hs, h⟩, hs', h'⟩
    refine ⟨hs.symm.trans hs', ?_⟩
    exact (forall₂_exists.mp ⟨_, h, h'⟩).imp fun a b hab => Arg.meets_iff.mp hab
  · rintro ⟨hs, h⟩
    obtain ⟨vs, hl, hl'⟩ := forall₂_exists.mpr (h.imp fun a b hab => Arg.meets_iff.mpr hab)
    exact ⟨⟨m.slot, vs⟩, ⟨rfl, hl⟩, hs, hl'⟩

/-! ### Shorthands -/

/-- All calls of `m` are calls of `m'`. -/
def Within (m m' : Method S) : Prop :=
  m.slot = m'.slot ∧ List.Forall₂ (Arg.Within m.params m'.params) m.args m'.args

instance [DecidableEq S] (m m' : Method S) : Decidable (m.Within m') :=
  inferInstanceAs (Decidable (_ ∧ _))

theorem forall₂_of_within {params params' : List ParamType} :
    ∀ {as bs : List Arg} {vs : List Value}, List.Forall₂ (Arg.Within params params') as bs →
      List.Forall₂ (Arg.Admits params) as vs → List.Forall₂ (Arg.Admits params') bs vs
  | _, _, _, .nil, .nil => .nil
  | _, _, _, .cons hw hws, .cons ha has => .cons (hw.admits ha) (forall₂_of_within hws has)

theorem Within.makes (h : m.Within m') (hc : m.Makes c) : m'.Makes c :=
  ⟨hc.1.trans h.1, forall₂_of_within h.2 hc.2⟩

/-! ### Defaults -/

variable {given : List Value}

/-- The arguments given and the defaults for the others. -/
def complete (m : Method S) (given : List Value) : List Value :=
  given ++ m.defaults.drop (given.length + m.defaults.length - m.params.length)

/-- The method may be called with these arguments: values for the first parameters, all others having
defaults. -/
def Accepts (m : Method S) (given : List Value) : Prop := m.Conforms (m.complete given)

instance (m : Method S) (given : List Value) : Decidable (m.Accepts given) :=
  inferInstanceAs (Decidable (List.Forall₂ _ _ _))

/-- With all arguments given, there is nothing to complete. -/
theorem complete_of_conforms (h : m.Conforms vs) : m.complete vs = vs := by
  have hl : m.params.length = vs.length := h.length_eq
  unfold complete
  rw [List.drop_of_length_le (by omega), List.append_nil]

/-- **The calls of a method**, with defaults or without. -/
theorem exists_accepts_iff (hm : m.Linear) :
    (∃ given, m.Accepts given ∧ m.call (m.complete given) = c) ↔ m.Makes c := by
  rw [← exists_call_iff hm]
  constructor
  · rintro ⟨given, h, he⟩
    exact ⟨_, h, he⟩
  · rintro ⟨vs, h, he⟩
    refine ⟨vs, ?_, ?_⟩
    · unfold Accepts
      rw [complete_of_conforms h]
      exact h
    · rw [complete_of_conforms h]
      exact he

end Method

/-! ### Overloads -/

/-- A method with one parameter, a `float`, which it passes on as an integer, `factor` times as large. -/
structure Conversion (S : Type) where
  slot : S
  factor : ℕ
deriving DecidableEq

/-- The call that the conversion makes, where converting is defined. -/
def Conversion.call? {S : Type} (x : Conversion S) (seconds : Float32) : Option (Call S) :=
  (Binary32.scaled? x.factor seconds).map fun n => ⟨x.slot, [.word n]⟩

/-- What a client may call. -/
inductive Overload (S : Type) where
  | method (m : Method S)
  | conversion (x : Conversion S)
deriving DecidableEq

namespace Overload

variable {S : Type} {o o' : Overload S} {c : Call S}

def slot : Overload S → S
  | method m => m.slot
  | conversion x => x.slot

def returns : Overload S → Bool
  | method m => m.returns
  | conversion _ => true

/-- The call that is made, if these arguments are accepted. A `float` is given as its 32 bits. -/
def call? : Overload S → List Value → Option (Call S)
  | method m, given => if m.Accepts given then some (m.call (m.complete given)) else none
  | conversion x, [.word w] => if w.toNat < 2 ^ 32 then x.call? (.ofBits w.toUInt32) else none
  | conversion _, _ => none

theorem call?_method {m : Method S} {given : List Value} :
    (method m).call? given = some c ↔ m.Accepts given ∧ m.call (m.complete given) = c := by
  simp only [call?, Option.ite_none_right_eq_some, Option.some_inj]

theorem exists_method_iff {m : Method S} (hm : m.Linear) :
    (∃ given, (method m).call? given = some c) ↔ m.Makes c := by
  rw [← Method.exists_accepts_iff hm]
  exact exists_congr fun given => call?_method

/-- A conversion passes on one integer. -/
theorem eq_of_conversion {x : Conversion S} : ∀ {given : List Value},
    (conversion x).call? given = some c → ∃ n, c = ⟨x.slot, [.word n]⟩
  | [.word w], h => by
    simp only [call?, Option.ite_none_right_eq_some] at h
    obtain ⟨n, -, hn⟩ := Option.map_eq_some_iff.mp h.2
    exact ⟨n, hn.symm⟩
  | [], h | [.object _], h | _ :: _ :: _, h => by
    simp [call?] at h

/-- The function called is the one of the overload. -/
theorem slot_of_call? : ∀ {o : Overload S} {given : List Value}, o.call? given = some c →
    c.slot = o.slot
  | method m, given, h => by
    obtain ⟨-, rfl⟩ := call?_method.mp h
    rfl
  | conversion x, given, h => by
    obtain ⟨n, rfl⟩ := eq_of_conversion h
    rfl

/-- Some arguments make both the same call. -/
def Shares (o o' : Overload S) : Prop :=
  ∃ c, (∃ given, o.call? given = some c) ∧ ∃ given, o'.call? given = some c

/-- The two overloads may make the same call. -/
def Meets : Overload S → Overload S → Prop
  | method m, method m' => m.Meets m'
  | o, o' => o.slot = o'.slot

instance [DecidableEq S] : (o o' : Overload S) → Decidable (o.Meets o')
  | method _, method _ => inferInstanceAs (Decidable (Method.Meets _ _))
  | method _, conversion _ | conversion _, method _ | conversion _, conversion _ =>
    inferInstanceAs (Decidable (_ = _))

/-- The method passes on the one integer it is given, as the conversion does. -/
def Direct (x : Conversion S) (m : Method S) : Prop :=
  m.slot = x.slot ∧ m.params = [.uint64] ∧ m.args = [.param 0]

instance [DecidableEq S] (x : Conversion S) (m : Method S) : Decidable (Direct x m) :=
  inferInstanceAs (Decidable (_ ∧ _))

/-- It makes all calls that the conversion makes. -/
theorem Direct.makes {x : Conversion S} {m : Method S} (h : Direct x m) (n : UInt64) :
    m.Makes ⟨x.slot, [.word n]⟩ := by
  obtain ⟨hs, hp, ha⟩ := h
  unfold Method.Makes
  rw [ha, hp]
  exact ⟨hs.symm, .cons ⟨.uint64, rfl, n.toNat_lt⟩ .nil⟩

end Overload

end MuchCoolEfi.Cxx.Forwarding
