import MuchCoolEfi.Cxx.FlatMemory

/-! # Where bytes come from

An operation that only sets some cells to values and moves the contents of others does to every cell
one of two things, whatever the memory holds: a `Transfer` says which. Transfers compose
(`apply_andThen`), so a whole run is one transfer (`run_eq_apply`), and what a cell holds in the end
is a fixed value or what one fixed cell held in the beginning. Which of the two can be told from the
outside (`depends_iff`).

Objects are constructed and copied by such operations. A `Pattern` is what becomes of the bytes of
the object, in terms of what its storage and the object copied held; at places of the memory it is a
transfer (`apply_onto`). Constructors store one piece after the other (`storingAll`), and leave the
bytes of no piece (`storingAll_eq_kept_iff`). -/

namespace MuchCoolEfi.Cxx.Provenance

open MuchCoolEfi.Cxx.Storage MuchCoolEfi.Cxx.Contiguous MuchCoolEfi.Cxx.Parts
open MuchCoolEfi.Cxx.FlatMemory MuchCoolEfi.Cxx.Run

/-! ### Transfers -/

/-- What a cell holds: a value, or what some cell held. -/
inductive Source (A B : Type*) where
  | value (b : B)
  | held (a : A)

/-- What every cell holds afterwards. -/
def Transfer (A B : Type*) := A → Source A B

namespace Transfer

variable {A B : Type*}

/-- The memory afterwards. -/
def apply (t : Transfer A B) (m : A → B) : A → B := fun a =>
  match t a with
  | .value b => b
  | .held a' => m a'

/-- Nothing is done. -/
def nothing : Transfer A B := .held

/-- `s`, then `t`. -/
def andThen (s t : Transfer A B) : Transfer A B := fun a =>
  match t a with
  | .value b => .value b
  | .held a' => s a'

variable {s t : Transfer A B} {m : A → B} {a a' : A} {b : B}

theorem apply_of_value (h : t a = .value b) : t.apply m a = b := by
  simp only [apply, h]

theorem apply_of_held (h : t a = .held a') : t.apply m a = m a' := by
  simp only [apply, h]

/-- **Transfers compose.** -/
theorem apply_andThen (s t : Transfer A B) (m : A → B) :
    (s.andThen t).apply m = t.apply (s.apply m) := by
  funext a
  rcases h : t a with b | a'
  · rw [apply_of_value h]
    exact apply_of_value (by simp only [andThen, h])
  · rw [apply_of_held h]
    simp only [apply, andThen, h]

/-- The transfer of a run of operations. -/
def ofRun {ω : Type*} (transfer : ω → Transfer A B) (os : List ω) : Transfer A B :=
  run (fun t o => t.andThen (transfer o)) nothing os

theorem ofRun_append_singleton {ω : Type*} (transfer : ω → Transfer A B) (os : List ω) (o : ω) :
    ofRun transfer (os ++ [o]) = (ofRun transfer os).andThen (transfer o) :=
  run_append os [o] nothing

section Runs

variable {ω : Type*} {step : (A → B) → ω → (A → B)} {transfer : ω → Transfer A B}

theorem run_apply (h : ∀ m o, step m o = (transfer o).apply m) (m : A → B) :
    ∀ (os : List ω) (t : Transfer A B),
      run step (t.apply m) os = (run (fun t o => t.andThen (transfer o)) t os).apply m
  | [], _ => rfl
  | o :: os, t => by
    rw [run, h, ← apply_andThen]
    exact run_apply h m os _

/-- **A run of transfers is one transfer.** -/
theorem run_eq_apply (h : ∀ m o, step m o = (transfer o).apply m) (os : List ω) (m : A → B) :
    run step m os = (ofRun transfer os).apply m :=
  run_apply h m os nothing

end Runs

/-- **A cell depends on the memory** exactly if it holds what some cell held. -/
theorem depends_iff [Nontrivial B] :
    (∃ m m' : A → B, t.apply m a ≠ t.apply m' a) ↔ ∃ a', t a = .held a' := by
  constructor
  · rintro ⟨m, m', hne⟩
    rcases h : t a with b | a'
    · rw [apply_of_value h, apply_of_value h] at hne
      exact absurd rfl hne
    · exact ⟨a', rfl⟩
  · rintro ⟨a', h⟩
    obtain ⟨b, b', hb⟩ := exists_pair_ne B
    refine ⟨fun _ => b, fun _ => b', ?_⟩
    rw [apply_of_held h, apply_of_held h]
    exact hb

end Transfer

/-! ### Patterns -/

/-- What becomes of a byte of an object: it is set, it keeps what the storage held, or it is copied
from the same byte of another object. -/
inductive Origin where
  | value (b : UInt8)
  | kept
  | copied

/-- What becomes of every byte of an object. -/
def Pattern (n : ℕ) := Fin n → Origin

namespace Pattern

variable {n k : ℕ}

/-- The object afterwards. -/
def blend (t : Pattern n) (held other : Bytes n) : Bytes n := .ofFn fun i =>
  match t i with
  | .value b => b
  | .kept => held.get i
  | .copied => other.get i

/-- A field is set. -/
def storing (f : Field n k) (v : Bytes k) : Pattern n := fun i =>
  if h : f.Mem i then .value (v.get (f.position h)) else .kept

/-- A field is copied. -/
def copying (f : Field n k) : Pattern n := fun i => if f.Mem i then .copied else .kept

/-- Some bytes are set, each on its own. -/
def filling (fill : Fin n → Option UInt8) : Pattern n := fun i =>
  match fill i with
  | some b => .value b
  | none => .kept

/-- `s`, then `t`. -/
def andThen (s t : Pattern n) : Pattern n := fun i =>
  match t i with
  | .kept => s i
  | o => o

/-- All of them, in order. -/
def all : List (Pattern n) → Pattern n
  | [] => fun _ => .kept
  | t :: ts => t.andThen (all ts)

variable {held other : Bytes n}

theorem getElem_blend (t : Pattern n) {i : ℕ} (h : i < n) :
    (t.blend held other)[i] = match t ⟨i, h⟩ with
      | .value b => b
      | .kept => held[i]
      | .copied => other[i] := by
  simp only [blend, Vector.getElem_ofFn]
  rfl

theorem blend_storing (f : Field n k) (v : Bytes k) :
    (storing f v).blend held other = store f v held := by
  refine Vector.ext fun i hi => ?_
  rw [getElem_blend _ hi]
  by_cases h : f.Mem i
  · simp only [storing, store, h, Vector.getElem_ofFn, dite_true]
    rfl
  · simp [storing, store, h]

theorem blend_copying (f : Field n k) :
    (copying f).blend held other = store f (load f other) held := by
  refine Vector.ext fun i hi => ?_
  rw [getElem_blend _ hi]
  by_cases h : f.Mem i
  · obtain ⟨h1, h2⟩ := h
    have hk : i - f.offset < k := by omega
    have hi' : f.offset + (i - f.offset) = i := by omega
    rw [getElem_store_of_mem _ _ _ hi ⟨h1, h2⟩ hk, getElem_load _ _ hk (by omega)]
    simp only [copying, Field.Mem, h1, h2, and_self, if_true, hi']
  · rw [getElem_store_of_not_mem _ _ _ hi h]
    simp only [copying, h, if_false]

theorem blend_andThen (s t : Pattern n) :
    (s.andThen t).blend held other = t.blend (s.blend held other) other := by
  refine Vector.ext fun i hi => ?_
  rw [getElem_blend _ hi, getElem_blend _ hi, getElem_blend _ hi]
  rcases h : t ⟨i, hi⟩ with b | _ | _ <;> simp only [andThen, h]

theorem blend_all : ∀ (ts : List (Pattern n)) (held : Bytes n),
    (all ts).blend held other = run (fun s t => t.blend s other) held ts
  | [], held => by
    refine Vector.ext fun i hi => ?_
    rw [getElem_blend _ hi]
    rfl
  | t :: ts, held => by
    show (t.andThen (all ts)).blend held other = _
    rw [blend_andThen, blend_all ts]
    rfl

theorem storing_eq_kept_iff {f : Field n k} {v : Bytes k} {i : Fin n} :
    storing f v i = .kept ↔ ¬ f.Mem i := by
  by_cases h : f.Mem i <;> simp [storing, h]

theorem copying_eq_kept_iff {f : Field n k} {i : Fin n} : copying f i = .kept ↔ ¬ f.Mem i := by
  by_cases h : f.Mem i <;> simp [copying, h]

theorem storing_ne_copied {f : Field n k} {v : Bytes k} {i : Fin n} : storing f v i ≠ .copied := by
  by_cases h : f.Mem i <;> simp [storing, h]

theorem copying_ne_value {f : Field n k} {i : Fin n} {b : UInt8} : copying f i ≠ .value b := by
  by_cases h : f.Mem i <;> simp [copying, h]

theorem filling_eq_kept_iff {fill : Fin n → Option UInt8} {i : Fin n} :
    filling fill i = .kept ↔ fill i = none := by
  rcases h : fill i with - | b <;> simp [filling, h]

theorem filling_ne_copied {fill : Fin n → Option UInt8} {i : Fin n} :
    filling fill i ≠ .copied := by
  rcases h : fill i with - | b <;> simp [filling, h]

theorem andThen_eq_kept_iff {s t : Pattern n} {i : Fin n} :
    s.andThen t i = .kept ↔ s i = .kept ∧ t i = .kept := by
  rcases h : t i with b | _ | _ <;> simp [andThen, h]

theorem andThen_eq_copied_iff {s t : Pattern n} {i : Fin n} :
    s.andThen t i = .copied ↔ t i = .copied ∨ t i = .kept ∧ s i = .copied := by
  rcases h : t i with b | _ | _ <;> simp [andThen, h]

theorem all_eq_kept_iff {i : Fin n} : ∀ {ts : List (Pattern n)},
    all ts i = .kept ↔ ∀ t ∈ ts, t i = .kept
  | [] => by simp [all]
  | _ :: _ => by
    rw [all, andThen_eq_kept_iff, all_eq_kept_iff, List.forall_mem_cons]

/-- What no pattern does to a byte, all together do not do. -/
theorem all_ne {o : Origin} (ho : .kept ≠ o) {i : Fin n} :
    ∀ {ts : List (Pattern n)}, (∀ t ∈ ts, t i ≠ o) → all ts i ≠ o
  | [], _ => ho
  | t :: ts, h => by
    have ht := h t List.mem_cons_self
    have hts := all_ne ho fun u hu => h u (List.mem_cons_of_mem t hu)
    show t.andThen (all ts) i ≠ o
    rcases hi : all ts i with b | _ | _ <;> simp only [andThen, hi]
    · exact hi ▸ hts
    · exact ht
    · exact hi ▸ hts

theorem run_blend_map {ω : Type} {f : ω → Pattern n} {g : Bytes n → ω → Bytes n}
    (h : ∀ s o, (f o).blend s other = g s o) : ∀ (os : List ω) (held : Bytes n),
    run (fun s t => Pattern.blend t s other) held (os.map f) = run g held os
  | [], _ => rfl
  | o :: os, held => by
    rw [List.map_cons, run, run, h]
    exact run_blend_map h os _

/-! ### Storing -/

/-- Some bytes, and where they are stored. -/
structure Piece (n : ℕ) where
  size : ℕ
  field : Field n size
  bytes : Bytes size

/-- The whole object. -/
def Piece.whole (v : Bytes n) : Piece n := ⟨n, Field.whole, v⟩

/-- The pieces are stored, one after the other. -/
def storingAll (ps : List (Piece n)) : Pattern n := all (ps.map fun p => storing p.field p.bytes)

/-- **Storing pieces** is a pattern. -/
theorem blend_storingAll (ps : List (Piece n)) :
    (storingAll ps).blend held other = run (fun s p => store p.field p.bytes s) held ps := by
  unfold storingAll
  rw [blend_all]
  exact run_blend_map (fun _ _ => blend_storing _ _) ps held

/-- Storing leaves the bytes of no piece. -/
theorem storingAll_eq_kept_iff {ps : List (Piece n)} {i : Fin n} :
    storingAll ps i = .kept ↔ ∀ p ∈ ps, ¬ p.field.Mem i := by
  simp only [storingAll, all_eq_kept_iff, List.forall_mem_map, storing_eq_kept_iff]

/-- Storing copies nothing. -/
theorem storingAll_ne_copied {ps : List (Piece n)} {i : Fin n} : storingAll ps i ≠ .copied := by
  refine all_ne Origin.noConfusion ?_
  rw [List.forall_mem_map]
  exact fun _ _ => storing_ne_copied

/-- Where all is stored at first, nothing is left. -/
theorem storingAll_whole_ne_kept (v : Bytes n) (ps : List (Piece n)) (i : Fin n) :
    storingAll (.whole v :: ps) i ≠ .kept := fun h =>
  storingAll_eq_kept_iff.mp h _ List.mem_cons_self (Field.mem_whole i)

/-! ### Objects with parts -/

section Parts

variable {ι : Type} {P : PartsOf n ι}

/-- What an assignment to a part stores. -/
def Piece.ofAssignment (a : P.Assignment) : Piece n := ⟨_, P.field a.1, (P.type a.1).encode a.2⟩

/-- Copy member by member. -/
def copyParts (P : PartsOf n ι) (held other : Bytes n) : Bytes n :=
  run (fun s i => store (P.field i) (load (P.field i) other) s) held P.all

/-- All parts are copied. -/
def copyingParts (P : PartsOf n ι) : Pattern n := all (P.all.map fun i => copying (P.field i))

theorem blend_copyingParts : (copyingParts P).blend held other = copyParts P held other := by
  unfold copyingParts copyParts
  rw [blend_all]
  exact run_blend_map (fun _ _ => blend_copying _) P.all held

/-- Copying leaves the padding. -/
theorem copyingParts_eq_kept_iff {b : Fin n} : copyingParts P b = .kept ↔ P.Padding b := by
  simp only [copyingParts, all_eq_kept_iff, List.forall_mem_map, copying_eq_kept_iff,
    PartsOf.Padding]
  exact ⟨fun h i => h i (P.mem_all i), fun h i _ => h i⟩

/-- Copying sets nothing. -/
theorem copyingParts_ne_value {b : Fin n} {u : UInt8} : copyingParts P b ≠ .value u := by
  refine all_ne Origin.noConfusion ?_
  rw [List.forall_mem_map]
  exact fun _ _ => copying_ne_value

end Parts

/-! ### At places of the memory -/

/-- The object at `p` is changed; the one copied is at `q`. -/
def onto (t : Pattern n) (p q : Place n) : Transfer Pointer UInt8 := fun a =>
  if h : (a - p.start).toNat < n then
    match t ⟨(a - p.start).toNat, h⟩ with
    | .value b => .value b
    | .kept => .held a
    | .copied => .held (q.start + (a - p.start))
  else .held a

/-- **Changing an object in memory** is a transfer. -/
theorem apply_onto (t : Pattern n) (p q : Place n) (m : Flat) :
    (t.onto p q).apply m =
      writeAt p.start (t.blend (readAt n p.start m) (readAt n q.start m)) m := by
  funext a
  unfold writeAt
  by_cases h : (a - p.start).toNat < n
  · have hp : p.start + UInt64.ofNat (a - p.start).toNat = a := by
      rw [UInt64.ofNat_toNat, UInt64.add_comm, UInt64.sub_add_cancel]
    have hq : q.start + UInt64.ofNat (a - p.start).toNat = q.start + (a - p.start) := by
      rw [UInt64.ofNat_toNat]
    rw [dif_pos h, getElem_blend _ h, getElem_readAt _ _ h, getElem_readAt _ _ h, hp, hq]
    rcases hi : t ⟨(a - p.start).toNat, h⟩ with b | _ | _ <;>
      simp only [Transfer.apply, onto, dif_pos h, hi]
  · rw [dif_neg h]
    simp only [Transfer.apply, onto, dif_neg h]

theorem writeAt_eq_apply {t : Pattern n} {p q : Place n} {m : Flat} {b : Bytes n}
    (h : t.blend (readAt n p.start m) (readAt n q.start m) = b) :
    writeAt p.start b m = (t.onto p q).apply m := by
  rw [apply_onto, h]

theorem onto_of_not_covers {t : Pattern n} {p q : Place n} {a : Pointer} (h : ¬ p.Covers a) :
    t.onto p q a = .held a :=
  dif_neg fun hn => h (p.toNat_sub_lt_iff.mp hn)

/-- The byte `i` of an object afterwards. -/
theorem onto_start_add (t : Pattern n) (p q : Place n) (i : Fin n) :
    t.onto p q (p.start + UInt64.ofNat i) = match t i with
      | .value b => .value b
      | .kept => .held (p.start + UInt64.ofNat i)
      | .copied => .held (q.start + UInt64.ofNat i) := by
  have hs := p.in_space
  have hi := i.isLt
  have hsub : p.start + UInt64.ofNat i - p.start = UInt64.ofNat i := by
    rw [UInt64.add_comm, UInt64.add_sub_cancel]
  have hn : (UInt64.ofNat i.val).toNat = i := by
    rw [UInt64.toNat_ofNat']
    exact Nat.mod_eq_of_lt (by omega)
  have hlt : (p.start + UInt64.ofNat i - p.start).toNat < n := by
    rw [hsub, hn]
    exact hi
  have hfin : (⟨(p.start + UInt64.ofNat i - p.start).toNat, hlt⟩ : Fin n) = i := by
    ext
    show (p.start + UInt64.ofNat i - p.start).toNat = i
    rw [hsub, hn]
  unfold onto
  rw [dif_pos hlt, hfin, hsub]

end Pattern

end MuchCoolEfi.Cxx.Provenance
