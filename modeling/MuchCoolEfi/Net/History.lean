import Mathlib.Logic.Function.Basic
import MuchCoolEfi.Cxx.Run
import MuchCoolEfi.Net.Addresses

/-! # Histories of MAC addresses

Any number of `MacAddress` objects, named by `ι`, are constructed, copied, moved and assigned in any
order, in storage that may be used for something else between two objects. `step` is what this does
to the bytes; `last` keeps, per object, the `Mac` its value was last set from, if it came from one.

Two objects that came from a `Mac` should compare equal exactly if it was the same. In every history
they start with their `Mac` (`begins_run`), so equality asks for equal tails too (`equal_iff`). The
tails are equal if each construction from a `Mac` takes place in storage without one (`Clean`,
`canonical_run`), and every other construction can be told from an assignment of the same `Mac`
(`equality_exact`). -/

namespace MuchCoolEfi.Net.History

open MuchCoolEfi.Cxx.Storage MuchCoolEfi.Cxx.Run
open MuchCoolEfi.Net.Addresses

variable {ι : Type} [DecidableEq ι]

/-! ### Operations -/

inductive Operation (ι : Type) where
  /-- The storage of `x` is used for something else. -/
  | reuse (x : ι) (held : Bytes 32)
  | construct (x : ι)
  | constructBytes (x : ι) (bytes : Bytes 32)
  | constructMac (x : ι) (mac : Mac)
  | copyConstruct (x other : ι)
  | moveConstruct (x other : ι)
  | copyAssign (x other : ι)
  | moveAssign (x other : ι)
  | assignMac (x : ι) (mac : Mac)

/-- The bytes of all objects. -/
abbrev Storage (ι : Type) := ι → Bytes 32

/-- The `Mac` each value was last set from, directly or through copies. -/
abbrev Origins (ι : Type) := ι → Option Mac

def step (s : Storage ι) : Operation ι → Storage ι
  | .reuse x held => Function.update s x held
  | .construct x => Function.update s x (MacAddress.ofNothing (s x)).data
  | .constructBytes x bytes => Function.update s x (MacAddress.ofBytes (s x) bytes).data
  | .constructMac x mac => Function.update s x (MacAddress.ofMac (s x) mac).data
  | .copyConstruct x y => Function.update s x (MacAddress.copyConstruct (s x) ⟨s y⟩).data
  | .moveConstruct x y => Function.update s x (MacAddress.moveConstruct (s x) ⟨s y⟩).data
  | .copyAssign x y => Function.update s x (MacAddress.copyAssign ⟨s x⟩ ⟨s y⟩).data
  | .moveAssign x y => Function.update s x (MacAddress.moveAssign ⟨s x⟩ ⟨s y⟩).data
  | .assignMac x mac => Function.update s x (MacAddress.assignMac ⟨s x⟩ mac).data

def last (o : Origins ι) : Operation ι → Origins ι
  | .reuse x _ => Function.update o x none
  | .construct x => Function.update o x none
  | .constructBytes x _ => Function.update o x none
  | .constructMac x mac => Function.update o x (some mac)
  | .copyConstruct x y => Function.update o x (o y)
  | .moveConstruct x y => Function.update o x (o y)
  | .copyAssign x y => Function.update o x (o y)
  | .moveAssign x y => Function.update o x (o y)
  | .assignMac x mac => Function.update o x (some mac)

/-- At the start, no object has been set. -/
def unset : Origins ι := fun _ => none

/-- A construction from a `Mac` takes place in storage without a tail. -/
def Clean (s : Storage ι) : Operation ι → Prop
  | .constructMac x _ => load tailField (s x) = noTail
  | _ => True

instance (s : Storage ι) (op : Operation ι) : Decidable (Clean s op) := by
  unfold Clean
  split <;> infer_instance

/-- `operator==` on two of the objects. -/
def equal (s : Storage ι) (x y : ι) : Bool := MacAddress.operatorEq ⟨s x⟩ ⟨s y⟩

/-! ### What is kept about objects set from a `Mac` -/

/-- The bytes of every object set from a `Mac` are as `P` says. -/
def Holds (P : Mac → Bytes 32 → Prop) (s : Storage ι) (o : Origins ι) : Prop :=
  ∀ x mac, o x = some mac → P mac (s x)

theorem holds_update {P : Mac → Bytes 32 → Prop} {s : Storage ι} {o : Origins ι} (h : Holds P s o)
    (x : ι) {b : Bytes 32} {v : Option Mac} (hv : ∀ mac, v = some mac → P mac b) :
    Holds P (Function.update s x b) (Function.update o x v) := by
  intro y mac hy
  by_cases hyx : y = x
  · subst hyx
    rw [Function.update_self] at hy ⊢
    exact hv mac hy
  · rw [Function.update_of_ne hyx] at hy ⊢
    exact h y mac hy

/-- The operations that set an object from something other than a `Mac` keep `P`, as do copies. What
is left to show is what the constructor and the assignment from a `Mac` leave. -/
theorem holds_step {P : Mac → Bytes 32 → Prop} {s : Storage ι} {o : Origins ι} {op : Operation ι}
    (hc : ∀ x mac, op = .constructMac x mac → P mac (MacAddress.ofMac (s x) mac).data)
    (ha : ∀ a mac, P mac (MacAddress.assignMac a mac).data) (h : Holds P s o) :
    Holds P (step s op) (last o op) := by
  have hcopy (x y : ι) : Holds P (Function.update s x (MacAddress.copied (s x) ⟨s y⟩).data)
      (Function.update o x (o y)) := by
    refine holds_update h x fun mac hm => ?_
    rw [MacAddress.copied_data]
    exact h y mac hm
  cases op with
  | reuse x held => exact holds_update h x fun mac hm => nomatch hm
  | construct x => exact holds_update h x fun mac hm => nomatch hm
  | constructBytes x bytes => exact holds_update h x fun mac hm => nomatch hm
  | constructMac x mac =>
    refine holds_update h x fun mac' hm => ?_
    obtain rfl := Option.some.inj hm
    exact hc x mac rfl
  | copyConstruct x y => exact hcopy x y
  | moveConstruct x y => exact hcopy x y
  | copyAssign x y => exact hcopy x y
  | moveAssign x y => exact hcopy x y
  | assignMac x mac =>
    refine holds_update h x fun mac' hm => ?_
    obtain rfl := Option.some.inj hm
    exact ha ⟨s x⟩ mac

omit [DecidableEq ι] in
theorem holds_unset (P : Mac → Bytes 32 → Prop) (s : Storage ι) : Holds P s unset :=
  fun _ _ h => nomatch h

/-- The object starts with its `Mac`. -/
def Begins : Storage ι → Origins ι → Prop := Holds fun mac b => load macField b = mac

/-- The object is its `Mac` and zeros. -/
def Canonical : Storage ι → Origins ι → Prop := Holds fun mac b => b = padded mac

theorem begins_step {s : Storage ι} {o : Origins ι} (op : Operation ι) (h : Begins s o) :
    Begins (step s op) (last o op) := by
  refine holds_step (fun x mac _ => MacAddress.load_mac_ofMac (s x) mac) (fun a mac => ?_) h
  rw [MacAddress.assignMac_data, load_mac_padded]

theorem canonical_step {s : Storage ι} {o : Origins ι} {op : Operation ι} (h : Canonical s o)
    (hc : Clean s op) : Canonical (step s op) (last o op) := by
  refine holds_step (fun x mac hop => ?_) (fun a mac => a.assignMac_data mac) h
  subst hop
  exact MacAddress.ofMac_eq_padded.mpr hc

section Runs

variable (held : Storage ι) (ops : List (Operation ι))

/-- **After every history**, an object set from a `Mac` starts with it. -/
theorem begins_run : Begins (run step held ops) (run last unset ops) :=
  run_sim (G := fun _ _ => True) (fun _ _ op h _ => begins_step op h) ops held unset
    (holds_unset _ held) (allowed_of_mem ops held fun _ _ => trivial)

/-- **After every history with clean constructions**, zeros follow. -/
theorem canonical_run (ha : Allowed step Clean held ops) :
    Canonical (run step held ops) (run last unset ops) := by
  have hstep (s : Storage ι) (o : Origins ι) (op : Operation ι) (h : Canonical s o)
      (hc : Clean s op) : Canonical (step s op) (last o op) := canonical_step h hc
  exact run_sim hstep ops held unset (holds_unset _ held) ha

variable {held ops} {x y : ι} {m₁ m₂ : Mac}

/-- **Equality in every history** asks for the same `Mac` and the same tail. -/
theorem equal_iff (hx : run last unset ops x = some m₁) (hy : run last unset ops y = some m₂) :
    equal (run step held ops) x y = true ↔
      m₁ = m₂ ∧ load tailField (run step held ops x) = load tailField (run step held ops y) := by
  have h₁ := begins_run held ops x m₁ hx
  have h₂ := begins_run held ops y m₂ hy
  unfold equal
  rw [MacAddress.operatorEq_iff, eq_iff_mac_tail, h₁, h₂]

theorem equal_iff_of_clean (ha : Allowed step Clean held ops)
    (hx : run last unset ops x = some m₁) (hy : run last unset ops y = some m₂) :
    equal (run step held ops) x y = true ↔ m₁ = m₂ := by
  have h₁ := canonical_run held ops ha x m₁ hx
  have h₂ := canonical_run held ops ha y m₂ hy
  unfold equal
  rw [MacAddress.operatorEq_iff, h₁, h₂, padded_inj]

/-- Two objects from the same `Mac` differ exactly if their tails do. -/
theorem equal_iff_mac_iff (hx : run last unset ops x = some m₁)
    (hy : run last unset ops y = some m₂) :
    (equal (run step held ops) x y = true ↔ m₁ = m₂) ↔
      (m₁ = m₂ →
        load tailField (run step held ops x) = load tailField (run step held ops y)) := by
  rw [equal_iff hx hy]
  constructor
  · intro h hm
    exact (h.mpr hm).2
  · intro h
    exact ⟨fun h' => h'.1, fun hm => ⟨hm, h hm⟩⟩

/-- A construction that is not clean can be told from an assignment of the same `Mac`. -/
theorem not_equal_of_not_clean {s : Storage ι} (hxy : x ≠ y) (mac : Mac)
    (hc : ¬ Clean s (.constructMac x mac)) :
    equal (run step s [.constructMac x mac, .assignMac y mac]) x y = false := by
  have hs : run step s [.constructMac x mac, .assignMac y mac] x =
      (MacAddress.ofMac (s x) mac).data := by
    show Function.update (Function.update s x _) y _ x = _
    rw [Function.update_of_ne hxy, Function.update_self]
  have ht : run step s [.constructMac x mac, .assignMac y mac] y = padded mac := by
    show Function.update (Function.update s x _) y _ y = _
    rw [Function.update_self, MacAddress.assignMac_data]
  unfold equal
  rw [Bool.eq_false_iff, ne_eq, MacAddress.operatorEq_iff, hs, ht, MacAddress.ofMac_eq_padded]
  exact hc

end Runs

/-- The three ways to a value set from `mac`: constructed in storage that held `held`, assigned to
`a`, and constructed from the 32 bytes of `mac` and zeros. -/
theorem three_ways (held held' : Bytes 32) (a : MacAddress) (mac : Mac) :
    ((MacAddress.ofMac held mac).operatorEq (a.assignMac mac) = true ∧
      (a.assignMac mac).operatorEq (MacAddress.ofBytes held' (padded mac)) = true ∧
      (MacAddress.ofMac held mac).operatorEq (MacAddress.ofBytes held' (padded mac)) = true) ↔
    load tailField held = noTail := by
  simp only [MacAddress.operatorEq_iff, MacAddress.assignMac_data, MacAddress.ofBytes_data,
    MacAddress.ofMac_eq_padded, true_and, and_self]

/-- **When equality does not depend on history.** If every construction from a `Mac` takes place in
storage without a tail, any two objects last set from a `Mac` compare equal exactly if it was the
same. In any history this holds of two objects exactly if their tails do not differ for one `Mac`. A
construction in storage with a tail, at any point of any history, is told from an assignment of the
same `Mac`, and the three ways to a value agree only without a tail. -/
theorem equality_exact (held : Storage ι) (ops : List (Operation ι)) :
    (Allowed step Clean held ops → ∀ x y m₁ m₂,
      run last unset ops x = some m₁ → run last unset ops y = some m₂ →
      (equal (run step held ops) x y = true ↔ m₁ = m₂)) ∧
    (∀ x y m₁ m₂, run last unset ops x = some m₁ → run last unset ops y = some m₂ →
      ((equal (run step held ops) x y = true ↔ m₁ = m₂) ↔
        (m₁ = m₂ →
          load tailField (run step held ops x) = load tailField (run step held ops y)))) ∧
    (∀ x y mac, x ≠ y → ¬ Clean (run step held ops) (.constructMac x mac) →
      run last unset (ops ++ [.constructMac x mac, .assignMac y mac]) x = some mac ∧
      run last unset (ops ++ [.constructMac x mac, .assignMac y mac]) y = some mac ∧
      equal (run step held (ops ++ [.constructMac x mac, .assignMac y mac])) x y = false) ∧
    (∀ (before before' : Bytes 32) (a : MacAddress) (mac : Mac),
      ((MacAddress.ofMac before mac).operatorEq (a.assignMac mac) = true ∧
        (a.assignMac mac).operatorEq (MacAddress.ofBytes before' (padded mac)) = true ∧
        (MacAddress.ofMac before mac).operatorEq (MacAddress.ofBytes before' (padded mac)) = true) ↔
      load tailField before = noTail) := by
  refine ⟨fun ha x y m₁ m₂ hx hy => equal_iff_of_clean ha hx hy,
    fun x y m₁ m₂ hx hy => equal_iff_mac_iff hx hy, fun x y mac hxy hc => ?_, three_ways⟩
  rw [run_append, run_append]
  refine ⟨?_, ?_, not_equal_of_not_clean hxy mac hc⟩
  · show Function.update (Function.update _ x _) y _ x = _
    rw [Function.update_of_ne hxy, Function.update_self]
  · show Function.update (Function.update _ x _) y _ y = _
    rw [Function.update_self]

/-- A clean construction, another one after the storage was used again, and a copy. -/
theorem equality_exact_clean :
    equal (run step (fun _ : Bool => .replicate 32 0)
      [.constructMac false (.replicate 6 2), .reuse true (.replicate 32 1),
        .constructBytes true (.replicate 32 0), .constructMac true (.replicate 6 3),
        .copyAssign true false]) false true = true :=
  ((equality_exact (fun _ : Bool => .replicate 32 0) _).1 (by decide) false true (.replicate 6 2)
    (.replicate 6 2) rfl rfl).mpr rfl

/-- The same `Mac` constructed in storage full of ones and assigned to another object: the two are
not equal. -/
theorem equality_fails_dirty :
    run last unset [.constructMac false (.replicate 6 2), .assignMac true (.replicate 6 2)] false =
        some (.replicate 6 2) ∧
      run last unset [.constructMac false (.replicate 6 2), .assignMac true (.replicate 6 2)] true =
        some (.replicate 6 2) ∧
      equal (run step (fun _ => .replicate 32 1)
        [.constructMac false (.replicate 6 2), .assignMac true (.replicate 6 2)]) false true =
          false := by
  refine ⟨rfl, rfl, not_equal_of_not_clean Bool.false_ne_true _ ?_⟩
  show load tailField (.replicate 32 1) ≠ noTail
  decide

end MuchCoolEfi.Net.History
