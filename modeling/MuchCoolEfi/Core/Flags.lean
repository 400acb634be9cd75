import Mathlib.Data.Finset.Disjoint
import Mathlib.Data.Finset.Filter
import Mathlib.Data.Finset.Lattice.Lemmas
import Mathlib.Data.Finset.Range
import Mathlib.Data.Nat.Bitwise

/-! # Enumerations of flags

A word of flags is a set of bit numbers (`flags`), and `|` and `&`, as `ENUM_FLAGS` defines them for an
enumeration, are union and intersection. So an expression of enumerators and these operators stands for a
set of enumerators: its word determines the set, any set is that of an expression, and with `&`, one can
ask for each (`expression_words`). -/

namespace MuchCoolEfi.Core.Flags

/-! ### Flags -/

/-- `enum_bit(index)`. -/
def enumBit (index : ℕ) : UInt32 := (1 : UInt32) <<< UInt32.ofNat index

/-- `operator|` of an enumeration of flags. -/
def operatorOr (lhs rhs : UInt32) : UInt32 := lhs ||| rhs

/-- `operator&` of an enumeration of flags. -/
def operatorAnd (lhs rhs : UInt32) : UInt32 := lhs &&& rhs

/-- The numbers of the bits that are set. -/
def flags (w : UInt32) : Finset ℕ := (Finset.range 32).filter fun i => w.toNat.testBit i

theorem mem_flags {w : UInt32} {i : ℕ} : i ∈ flags w ↔ w.toNat.testBit i = true := by
  unfold flags
  rw [Finset.mem_filter, Finset.mem_range]
  constructor
  · rintro ⟨-, h⟩
    exact h
  · intro h
    refine ⟨?_, h⟩
    by_contra hi
    have hw : w.toNat < 2 ^ i :=
      Nat.lt_of_lt_of_le w.toNat_lt (Nat.pow_le_pow_right (by decide) (Nat.not_lt.mp hi))
    rw [Nat.testBit_lt_two_pow hw] at h
    cases h

/-- **A word is the set of its flags.** -/
theorem flags_inj {v w : UInt32} : flags v = flags w ↔ v = w := by
  constructor
  · intro h
    refine UInt32.toNat_inj.mp (Nat.eq_of_testBit_eq fun i => ?_)
    rw [Bool.eq_iff_iff, ← mem_flags, ← mem_flags, h]
  · rintro rfl; rfl

theorem flags_operatorOr (v w : UInt32) : flags (operatorOr v w) = flags v ∪ flags w := by
  refine Finset.ext fun i => ?_
  rw [Finset.mem_union, mem_flags, mem_flags, mem_flags, operatorOr, UInt32.toNat_or,
    Nat.testBit_or, Bool.or_eq_true]

theorem flags_operatorAnd (v w : UInt32) : flags (operatorAnd v w) = flags v ∩ flags w := by
  refine Finset.ext fun i => ?_
  rw [Finset.mem_inter, mem_flags, mem_flags, mem_flags, operatorAnd, UInt32.toNat_and,
    Nat.testBit_and, Bool.and_eq_true]

@[simp] theorem flags_zero : flags 0 = ∅ := rfl

theorem toNat_enumBit {i : ℕ} (h : i < 32) : (enumBit i).toNat = 2 ^ i := by
  have hi : (UInt32.ofNat i).toNat % 32 = i := by
    rw [UInt32.toNat_ofNat', Nat.mod_eq_of_lt (a := i) (by omega), Nat.mod_eq_of_lt h]
  have hp : 2 ^ i < 2 ^ 32 := Nat.pow_lt_pow_right (by decide) h
  unfold enumBit
  rw [UInt32.toNat_shiftLeft, hi]
  show 1 <<< i % 2 ^ 32 = _
  rw [Nat.one_shiftLeft, Nat.mod_eq_of_lt hp]

theorem flags_enumBit {i : ℕ} (h : i < 32) : flags (enumBit i) = {i} := by
  refine Finset.ext fun j => ?_
  rw [mem_flags, toNat_enumBit h, Nat.testBit_two_pow, decide_eq_true_eq, Finset.mem_singleton]
  exact eq_comm

/-! ### Expressions -/

/-- Enumerators, combined by `|` and `&`. -/
inductive FlagExpr (ε : Type) where
  | enumerator (e : ε)
  | or (lhs rhs : FlagExpr ε)
  | and (lhs rhs : FlagExpr ε)

/-- The set the expression stands for. -/
def FlagExpr.enumerators {ε : Type} : FlagExpr ε → Set ε
  | enumerator e => {e}
  | or lhs rhs => lhs.enumerators ∪ rhs.enumerators
  | and lhs rhs => lhs.enumerators ∩ rhs.enumerators

/-- An enumeration whose words are single bits, those from 0 to some `width`, no two the same. -/
structure FlagEnum (ε : Type) where
  word : ε → UInt32
  width : ℕ
  bit : ε → ℕ
  word_eq : ∀ e, word e = enumBit (bit e)
  bit_lt : ∀ e, bit e < width
  bit_inj : Function.Injective bit
  bit_surj : ∀ i < width, ∃ e, bit e = i
  two_le : 2 ≤ width
  le_bits : width ≤ 32

namespace FlagEnum

variable {ε : Type} (E : FlagEnum ε)

/-- The word of an expression. -/
def eval : FlagExpr ε → UInt32
  | .enumerator e => E.word e
  | .or lhs rhs => operatorOr (eval lhs) (eval rhs)
  | .and lhs rhs => operatorAnd (eval lhs) (eval rhs)

theorem flags_word (e : ε) : flags (E.word e) = {E.bit e} := by
  rw [E.word_eq, flags_enumBit (lt_of_lt_of_le (E.bit_lt e) E.le_bits)]

/-- **The flags of an expression** are those of its enumerators. -/
theorem mem_flags_eval {i : ℕ} : ∀ x : FlagExpr ε,
    i ∈ flags (E.eval x) ↔ ∃ e ∈ x.enumerators, E.bit e = i
  | .enumerator e => by
    rw [eval, flags_word, Finset.mem_singleton]
    constructor
    · rintro rfl
      exact ⟨e, rfl, rfl⟩
    · rintro ⟨_, rfl, h⟩
      exact h.symm
  | .or lhs rhs => by
    rw [eval, flags_operatorOr, Finset.mem_union, mem_flags_eval lhs, mem_flags_eval rhs]
    constructor
    · rintro (⟨e, he, h⟩ | ⟨e, he, h⟩)
      · exact ⟨e, Or.inl he, h⟩
      · exact ⟨e, Or.inr he, h⟩
    · rintro ⟨e, he | he, h⟩
      · exact Or.inl ⟨e, he, h⟩
      · exact Or.inr ⟨e, he, h⟩
  | .and lhs rhs => by
    rw [eval, flags_operatorAnd, Finset.mem_inter, mem_flags_eval lhs, mem_flags_eval rhs]
    constructor
    · rintro ⟨⟨e, he, h⟩, e', he', h'⟩
      obtain rfl : e = e' := E.bit_inj (h.trans h'.symm)
      exact ⟨e, ⟨he, he'⟩, h⟩
    · rintro ⟨e, ⟨hl, hr⟩, h⟩
      exact ⟨⟨e, hl, h⟩, e, hr, h⟩

theorem bit_mem_flags_eval (x : FlagExpr ε) (e : ε) :
    E.bit e ∈ flags (E.eval x) ↔ e ∈ x.enumerators := by
  rw [mem_flags_eval]
  constructor
  · rintro ⟨e', he', h⟩
    exact E.bit_inj h ▸ he'
  · intro h
    exact ⟨e, h, rfl⟩

/-- Two expressions have the same word if they stand for the same set. -/
theorem eval_eq_iff (x y : FlagExpr ε) : E.eval x = E.eval y ↔ x.enumerators = y.enumerators := by
  constructor
  · intro h
    ext e
    rw [← E.bit_mem_flags_eval, h, E.bit_mem_flags_eval]
  · intro h
    refine flags_inj.mp (Finset.ext fun i => ?_)
    rw [mem_flags_eval, mem_flags_eval, h]

/-- With `&`, any enumerator can be asked for. -/
theorem eval_and_ne_zero_iff (x : FlagExpr ε) (e : ε) :
    E.eval (.and x (.enumerator e)) ≠ 0 ↔ e ∈ x.enumerators := by
  rw [← E.bit_mem_flags_eval, ne_eq, ← flags_inj, flags_zero, eval, eval, flags_operatorAnd,
    flags_word, ← Finset.disjoint_iff_inter_eq_empty, Finset.disjoint_singleton_right, not_not]

/-- Two different enumerators have nothing in common. -/
theorem exists_eval_empty : ∃ x, flags (E.eval x) = ∅ := by
  obtain ⟨a, ha⟩ := E.bit_surj 0 (by have := E.two_le; omega)
  obtain ⟨b, hb⟩ := E.bit_surj 1 E.two_le
  refine ⟨.and (.enumerator a) (.enumerator b), Finset.eq_empty_of_forall_notMem fun i hi => ?_⟩
  obtain ⟨e, ⟨rfl, he⟩, -⟩ := (E.mem_flags_eval _).mp hi
  obtain rfl : e = b := he
  omega

/-- Any set of bits that belong to enumerators is one of an expression. -/
theorem exists_eval (s : Finset ℕ) : (∀ i ∈ s, i < E.width) → ∃ x, flags (E.eval x) = s := by
  induction s using Finset.induction_on with
  | empty => exact fun _ => E.exists_eval_empty
  | insert i s _ ih =>
    intro h
    obtain ⟨x, hx⟩ := ih fun j hj => h j (Finset.mem_insert_of_mem hj)
    obtain ⟨e, he⟩ := E.bit_surj i (h i (Finset.mem_insert_self i s))
    refine ⟨.or (.enumerator e) x, ?_⟩
    rw [eval, eval, flags_operatorOr, flags_word, he, hx, Finset.insert_eq]

/-- The words of expressions are those with no other bits. -/
theorem exists_eval_iff (w : UInt32) : (∃ x, E.eval x = w) ↔ w.toNat < 2 ^ E.width := by
  constructor
  · rintro ⟨x, rfl⟩
    refine Nat.lt_pow_two_of_testBit _ fun i hi => Bool.not_eq_true _ ▸ fun h => ?_
    obtain ⟨e, -, rfl⟩ := (E.mem_flags_eval x).mp (mem_flags.mpr h)
    exact absurd (E.bit_lt e) (Nat.not_lt.mpr hi)
  · intro h
    obtain ⟨x, hx⟩ := E.exists_eval (flags w) fun i hi => by
      by_contra hn
      have hp : 2 ^ E.width ≤ 2 ^ i := Nat.pow_le_pow_right (by decide) (Nat.not_lt.mp hn)
      have hz := Nat.testBit_lt_two_pow (lt_of_lt_of_le h hp)
      rw [mem_flags.mp hi] at hz
      cases hz
    exact ⟨x, flags_inj.mp hx⟩

end FlagEnum

/-! ### The enumerations -/

inductive RecieveFilterSettings where
  | unicast | multicast | broadcast | promiscuous | promiscuousMulticast
deriving DecidableEq

inductive InfiniBandResourceFlags where
  | service | extendedBootEnvironment | consoleProtocol | storageProtocol | networkProtocol
deriving DecidableEq

inductive FlowControlFlags where
  | hardware | xOnXOff
deriving DecidableEq

/-- Here the words are written out. -/
def RecieveFilterSettings.word : RecieveFilterSettings → UInt32
  | unicast => 0x01
  | multicast => 0x02
  | broadcast => 0x04
  | promiscuous => 0x08
  | promiscuousMulticast => 0x10

def InfiniBandResourceFlags.word : InfiniBandResourceFlags → UInt32
  | service => enumBit 0
  | extendedBootEnvironment => enumBit 1
  | consoleProtocol => enumBit 2
  | storageProtocol => enumBit 3
  | networkProtocol => enumBit 4

def FlowControlFlags.word : FlowControlFlags → UInt32
  | hardware => enumBit 0
  | xOnXOff => enumBit 1

def recieveFilterSettings : FlagEnum RecieveFilterSettings where
  word := RecieveFilterSettings.word
  width := 5
  bit
    | .unicast => 0
    | .multicast => 1
    | .broadcast => 2
    | .promiscuous => 3
    | .promiscuousMulticast => 4
  word_eq e := by cases e <;> rfl
  bit_lt e := by cases e <;> decide
  bit_inj e f := by cases e <;> cases f <;> simp
  bit_surj
    | 0, _ => ⟨.unicast, rfl⟩
    | 1, _ => ⟨.multicast, rfl⟩
    | 2, _ => ⟨.broadcast, rfl⟩
    | 3, _ => ⟨.promiscuous, rfl⟩
    | 4, _ => ⟨.promiscuousMulticast, rfl⟩
  two_le := by decide
  le_bits := by decide

def infiniBandResourceFlags : FlagEnum InfiniBandResourceFlags where
  word := InfiniBandResourceFlags.word
  width := 5
  bit
    | .service => 0
    | .extendedBootEnvironment => 1
    | .consoleProtocol => 2
    | .storageProtocol => 3
    | .networkProtocol => 4
  word_eq e := by cases e <;> rfl
  bit_lt e := by cases e <;> decide
  bit_inj e f := by cases e <;> cases f <;> simp
  bit_surj
    | 0, _ => ⟨.service, rfl⟩
    | 1, _ => ⟨.extendedBootEnvironment, rfl⟩
    | 2, _ => ⟨.consoleProtocol, rfl⟩
    | 3, _ => ⟨.storageProtocol, rfl⟩
    | 4, _ => ⟨.networkProtocol, rfl⟩
  two_le := by decide
  le_bits := by decide

def flowControlFlags : FlagEnum FlowControlFlags where
  word := FlowControlFlags.word
  width := 2
  bit
    | .hardware => 0
    | .xOnXOff => 1
  word_eq e := by cases e <;> rfl
  bit_lt e := by cases e <;> decide
  bit_inj e f := by cases e <;> cases f <;> simp
  bit_surj
    | 0, _ => ⟨.hardware, rfl⟩
    | 1, _ => ⟨.xOnXOff, rfl⟩
  two_le := le_rfl
  le_bits := by decide

/-- The three enumerations declared `ENUM_FLAGS`. -/
inductive Enumeration where
  | recieveFilterSettings | infiniBandResourceFlags | flowControlFlags

namespace Enumeration

abbrev Enumerator : Enumeration → Type
  | recieveFilterSettings => RecieveFilterSettings
  | infiniBandResourceFlags => InfiniBandResourceFlags
  | flowControlFlags => FlowControlFlags

def flagEnum : (k : Enumeration) → FlagEnum k.Enumerator
  | recieveFilterSettings => Flags.recieveFilterSettings
  | infiniBandResourceFlags => Flags.infiniBandResourceFlags
  | flowControlFlags => Flags.flowControlFlags

/-- All enumerators combined, and one more. -/
def bound : Enumeration → UInt32
  | recieveFilterSettings => 0x20
  | infiniBandResourceFlags => 0x20
  | flowControlFlags => 0x04

theorem toNat_bound (k : Enumeration) : k.bound.toNat = 2 ^ k.flagEnum.width := by
  cases k <;> rfl

/-- **The words of expressions**: `&` with an enumerator tells whether it is in the set, two expressions
have the same word exactly if they stand for the same set, and the words are those with no other bits. -/
theorem expression_words (k : Enumeration) :
    (∀ x e, k.flagEnum.eval (.and x (.enumerator e)) ≠ 0 ↔ e ∈ x.enumerators) ∧
      (∀ x y, k.flagEnum.eval x = k.flagEnum.eval y ↔ x.enumerators = y.enumerators) ∧
      ∀ w, (∃ x, k.flagEnum.eval x = w) ↔ w < k.bound := by
  refine ⟨k.flagEnum.eval_and_ne_zero_iff, k.flagEnum.eval_eq_iff, fun w => ?_⟩
  rw [k.flagEnum.exists_eval_iff, UInt32.lt_iff_toNat_lt, toNat_bound]

end Enumeration

end MuchCoolEfi.Core.Flags
