import MuchCoolEfi.Cxx.TopBit

/-! # Status codes

`Status` is an enumeration over a 64-bit word. Its enumerators are declared through two encoders,
`statusErrorCode` and `statusWarningCode`, and are read back by two tests, `operatorNot` and
`statusIsError`. An `Enumerator` is the name of a declaration, `declared` the encoder and the code
it is declared with, and `Enumerator.status` the word this gives.

What the encoding is for is said by `wordOf`: success is `0`, a warning is its code, an error is its
code with the top bit set. This is an injective code of all words, and the tests read it back
(`wordOf_inj`, `exists_wordOf`, `operatorNot_wordOf`, `statusIsError_wordOf`). `statusErrorCode`
masks with the flag where `wordOf` sets it, so it gives `0` on every code
(`statusErrorCode_eq_zero`) and every error enumerator is the word of `Success`
(`status_of_error`). -/

namespace MuchCoolEfi.Core.StatusCode

open MuchCoolEfi.Cxx.TopBit

/-! ### The encoders and the tests -/

/-- `status_error_flag`. -/
def statusErrorFlag : UInt64 := (1 : UInt64) <<< (63 : UInt64)

def statusErrorCode (code : UInt64) : UInt64 := code &&& statusErrorFlag

def statusWarningCode (code : UInt64) : UInt64 := code

/-- `enum class Status : uintn_t`: any 64-bit word is a value of it. -/
structure Status where
  value : UInt64
deriving DecidableEq

/-- The encoder an enumerator is declared with; `success` is the plain value `0`. -/
inductive Kind where
  | success
  | warning
  | error
deriving DecidableEq

/-- The word the code computes for a declaration. -/
def encode : Kind → UInt64 → UInt64
  | .success, code => code
  | .warning, code => statusWarningCode code
  | .error, code => statusErrorCode code

/-- The names of the enumerators. -/
inductive Enumerator where
  | success
  | warnUnknownGlyph | warnDeleteFailure | warnWriteFailure | warnBufferTooSmall | warnStaleData
  | warnFileSystem | warnResetRequired
  | loadError | invalidParameter | unsupported | badBufferSize | bufferTooSmall | notReady
  | deviceError | writeProtected | outOfResources | volumeCorrupted | volumeFull | noMedia
  | mediaChanged | notFound | accessDenied | noResponse | noMapping | timeout | notStarted
  | alreadyStarted | aborted | icmpError | tftpError | protocolError | incompatibleVersion
  | securityViolation | crcError | endOfMedia | endOfFile | invalidLanguage | compromisedData
  | ipAddressConflict | httpError
deriving DecidableEq

/-- What each enumerator is declared as. -/
def Enumerator.declared : Enumerator → Kind × UInt64
  | .success => (.success, 0)
  | .warnUnknownGlyph => (.warning, 1)
  | .warnDeleteFailure => (.warning, 2)
  | .warnWriteFailure => (.warning, 3)
  | .warnBufferTooSmall => (.warning, 4)
  | .warnStaleData => (.warning, 5)
  | .warnFileSystem => (.warning, 6)
  | .warnResetRequired => (.warning, 7)
  | .loadError => (.error, 1)
  | .invalidParameter => (.error, 2)
  | .unsupported => (.error, 3)
  | .badBufferSize => (.error, 4)
  | .bufferTooSmall => (.error, 5)
  | .notReady => (.error, 6)
  | .deviceError => (.error, 7)
  | .writeProtected => (.error, 8)
  | .outOfResources => (.error, 9)
  | .volumeCorrupted => (.error, 10)
  | .volumeFull => (.error, 11)
  | .noMedia => (.error, 12)
  | .mediaChanged => (.error, 13)
  | .notFound => (.error, 14)
  | .accessDenied => (.error, 15)
  | .noResponse => (.error, 16)
  | .noMapping => (.error, 17)
  | .timeout => (.error, 18)
  | .notStarted => (.error, 19)
  | .alreadyStarted => (.error, 20)
  | .aborted => (.error, 21)
  | .icmpError => (.error, 22)
  | .tftpError => (.error, 23)
  | .protocolError => (.error, 24)
  | .incompatibleVersion => (.error, 25)
  | .securityViolation => (.error, 26)
  | .crcError => (.error, 27)
  | .endOfMedia => (.error, 28)
  | .endOfFile => (.error, 31)
  | .invalidLanguage => (.error, 32)
  | .compromisedData => (.error, 33)
  | .ipAddressConflict => (.error, 34)
  | .httpError => (.error, 35)

def Enumerator.kind (e : Enumerator) : Kind := e.declared.1

def Enumerator.code (e : Enumerator) : UInt64 := e.declared.2

def Enumerator.status (e : Enumerator) : Status := ⟨encode e.kind e.code⟩

/-- `operator!`. -/
def operatorNot (status : Status) : Bool := status ≠ Enumerator.success.status

def statusIsError (status : Status) : Bool := status.value &&& statusErrorFlag > 0

/-! ### What the code computes -/

theorem statusErrorFlag_eq : statusErrorFlag = topBit := rfl

theorem success_status : Enumerator.success.status = ⟨0⟩ := rfl

theorem operatorNot_iff {s : Status} : operatorNot s = true ↔ s.value ≠ 0 := by
  have he : s = ⟨0⟩ ↔ s.value = 0 := ⟨fun h => by rw [h], fun h => by cases s; cases h; rfl⟩
  rw [operatorNot, success_status, decide_eq_true_eq, ne_eq, ne_eq, he]

theorem statusIsError_iff {s : Status} : statusIsError s = true ↔ topBit ≤ s.value := by
  rw [statusIsError, statusErrorFlag_eq, and_topBit, decide_eq_true_eq]
  by_cases h : topBit ≤ s.value
  · rw [if_pos h]
    exact ⟨fun _ => h, fun _ => by decide⟩
  · rw [if_neg h]
    exact ⟨fun h0 => absurd h0 (UInt64.lt_irrefl 0), fun h' => absurd h' h⟩

/-- **The mask of `statusErrorCode` drops the code.** -/
theorem statusErrorCode_eq_zero {code : UInt64} (h : code < topBit) : statusErrorCode code = 0 :=
  and_topBit_of_lt h

theorem code_lt (e : Enumerator) : e.code < topBit := by cases e <;> decide

theorem code_of_success {e : Enumerator} (h : e.kind = .success) : e.code = 0 := by
  revert h; cases e <;> decide

theorem code_of_warning {e : Enumerator} (h : e.kind = .warning) : e.code ≠ 0 := by
  revert h; cases e <;> decide

/-- **Only a warning enumerator has a word of its own**: every other is `0`. -/
theorem status_value (e : Enumerator) :
    e.status.value = if e.kind = .warning then e.code else 0 := by
  unfold Enumerator.status
  cases h : e.kind with
  | success => exact code_of_success h
  | warning => rfl
  | error => exact statusErrorCode_eq_zero (code_lt e)

/-- **Every error enumerator is `Success`.** -/
theorem status_of_error {e : Enumerator} (h : e.kind = .error) :
    e.status = Enumerator.success.status := by
  have hv := status_value e
  rw [h, if_neg (by decide)] at hv
  rw [success_status, ← hv]

theorem operatorNot_of_error {e : Enumerator} (h : e.kind = .error) :
    operatorNot e.status = false := by
  rw [status_of_error h]; rfl

theorem statusIsError_of_error {e : Enumerator} (h : e.kind = .error) :
    statusIsError e.status = false := by
  rw [status_of_error h]; rfl

theorem operatorNot_of_statusIsError {s : Status} (h : statusIsError s = true) :
    operatorNot s = true := by
  rw [operatorNot_iff]
  intro h0
  have := statusIsError_iff.mp h
  rw [h0] at this
  exact absurd this (by decide)

/-! ### What the encoding is for -/

/-- The word a status has by the encoding: an error carries the flag above its code. -/
def wordOf : Kind → UInt64 → UInt64
  | .success, _ => 0
  | .warning, code => code
  | .error, code => code ||| topBit

/-- A declaration the encoding is meant for. -/
def Proper : Kind → UInt64 → Prop
  | .success, code => code = 0
  | .warning, code => code ≠ 0 ∧ code < topBit
  | .error, code => code < topBit

theorem topBit_le_or {c : UInt64} (h : c < topBit) : topBit ≤ c ||| topBit := by
  rw [topBit_le_iff, toNat_or_topBit h]
  exact Nat.le_add_left _ _

theorem statusIsError_wordOf {k : Kind} {c : UInt64} (h : Proper k c) :
    statusIsError ⟨wordOf k c⟩ = true ↔ k = .error := by
  rw [statusIsError_iff]
  cases k with
  | success =>
    exact ⟨fun h' => absurd h' (show ¬ topBit ≤ (0 : UInt64) by decide), fun h' => by cases h'⟩
  | warning => exact ⟨fun h' => absurd h.2 (UInt64.not_lt.mpr h'), fun h' => by cases h'⟩
  | error => exact ⟨fun _ => rfl, fun _ => topBit_le_or h⟩

theorem operatorNot_wordOf {k : Kind} {c : UInt64} (h : Proper k c) :
    operatorNot ⟨wordOf k c⟩ = true ↔ k ≠ .success := by
  cases k with
  | success => exact ⟨fun h' => absurd rfl (operatorNot_iff.mp h'), fun h' => absurd rfl h'⟩
  | warning => exact ⟨fun _ => by decide, fun _ => operatorNot_iff.mpr h.1⟩
  | error =>
    have he := (statusIsError_wordOf (k := .error) h).mpr rfl
    exact ⟨fun _ => by decide, fun _ => operatorNot_of_statusIsError he⟩

/-- **The encoding is injective** on the declarations it is meant for. -/
theorem wordOf_inj {k l : Kind} {c d : UInt64} (hc : Proper k c) (hd : Proper l d)
    (h : wordOf k c = wordOf l d) : k = l ∧ c = d := by
  have he : k = .error ↔ l = .error := by
    rw [← statusIsError_wordOf hc, ← statusIsError_wordOf hd, h]
  have hs : k ≠ .success ↔ l ≠ .success := by
    rw [← operatorNot_wordOf hc, ← operatorNot_wordOf hd, h]
  cases k <;> cases l <;> simp only [reduceCtorEq, ne_eq, not_true_eq_false, not_false_eq_true,
    iff_true, iff_false] at he hs
  · exact ⟨rfl, hc.trans hd.symm⟩
  · exact ⟨rfl, h⟩
  · refine ⟨rfl, UInt64.toNat_inj.mp ?_⟩
    have hn := congrArg UInt64.toNat h
    simp only [wordOf] at hn
    rw [toNat_or_topBit hc, toNat_or_topBit hd] at hn
    omega

/-- **Every word is the word of a declaration**: the encoding covers what the firmware can return. -/
theorem exists_wordOf (w : UInt64) : ∃ k c, Proper k c ∧ wordOf k c = w := by
  by_cases hw : topBit ≤ w
  · exact ⟨.error, clear w, clear_lt w, clear_or_topBit hw⟩
  · by_cases h0 : w = 0
    · exact ⟨.success, 0, rfl, h0.symm⟩
    · exact ⟨.warning, w, ⟨h0, UInt64.not_le.mp hw⟩, rfl⟩

theorem proper_declared (e : Enumerator) : Proper e.kind e.code := by
  cases h : e.kind with
  | success => exact code_of_success h
  | warning => exact ⟨code_of_warning h, code_lt e⟩
  | error => exact code_lt e

/-- **The code agrees with the encoding exactly on the declarations that are no errors.** -/
theorem encode_eq_wordOf_iff {k : Kind} {c : UInt64} (h : Proper k c) :
    encode k c = wordOf k c ↔ k ≠ .error := by
  cases k with
  | success => exact ⟨fun _ => by decide, fun _ => h⟩
  | warning => exact ⟨fun _ => by decide, fun _ => rfl⟩
  | error =>
    refine ⟨fun he => ?_, fun h' => absurd rfl h'⟩
    have hle := topBit_le_or h
    rw [encode, statusErrorCode_eq_zero h, wordOf] at he
    rw [← he] at hle
    exact absurd hle (by decide)

/-! ### The contract of the encoding -/

/-- The contract at a word `w`, two codes `c` and `d`, and two enumerators: the encoders, the
enumeration and the tests agree with one another. -/
structure Contract (w c d : UInt64) (e f : Enumerator) : Prop where
  roundTrip : topBit ≤ w → statusErrorCode (clear w) = w
  errorIsError : c < topBit → statusIsError ⟨statusErrorCode c⟩ = true
  warningIsNoError : d < topBit → statusIsError ⟨statusWarningCode d⟩ = false
  errorInj : c < topBit → d < topBit → statusErrorCode c = statusErrorCode d → c = d
  errorNeWarning : c < topBit → d < topBit → statusErrorCode c ≠ statusWarningCode d
  distinct : e.declared ≠ f.declared → e.status ≠ f.status
  errorNeSuccess : e.kind = .error → e.status ≠ Enumerator.success.status
  errorTests : e.kind = .error → operatorNot e.status = true ∧ statusIsError e.status = true
  isErrorNot : statusIsError ⟨w⟩ = true → operatorNot ⟨w⟩ = true

theorem statusErrorCode_clear_ne {w : UInt64} (h : topBit ≤ w) : statusErrorCode (clear w) ≠ w := by
  rw [statusErrorCode_eq_zero (clear_lt w)]
  rintro rfl
  exact absurd h (by decide)

theorem statusIsError_statusErrorCode {c : UInt64} (h : c < topBit) :
    statusIsError ⟨statusErrorCode c⟩ = false := by
  rw [statusErrorCode_eq_zero h]; rfl

theorem statusIsError_statusWarningCode {d : UInt64} (h : d < topBit) :
    statusIsError ⟨statusWarningCode d⟩ = false := by
  rw [Bool.eq_false_iff, ne_eq, statusIsError_iff]
  exact UInt64.not_le.mpr h

/-- Two declarations give different words exactly when one of them is a warning. -/
theorem status_ne_iff {e f : Enumerator} (h : e.declared ≠ f.declared) :
    e.status ≠ f.status ↔ e.kind = .warning ∨ f.kind = .warning := by
  have hv : e.status = f.status ↔ e.status.value = f.status.value :=
    ⟨fun h => by rw [h], fun h => by cases he : e.status; cases hf : f.status; simp_all⟩
  rw [ne_eq, hv, status_value, status_value]
  by_cases he : e.kind = .warning
  · have h1 := code_of_warning he
    by_cases hf : f.kind = .warning
    · rw [if_pos he, if_pos hf]
      refine ⟨fun _ => Or.inl he, fun _ hc => h ?_⟩
      exact Prod.ext (he.trans hf.symm) hc
    · rw [if_pos he, if_neg hf]
      exact ⟨fun _ => Or.inl he, fun _ => h1⟩
  · by_cases hf : f.kind = .warning
    · rw [if_neg he, if_pos hf]
      exact ⟨fun _ => Or.inr hf, fun _ hc => code_of_warning hf hc.symm⟩
    · rw [if_neg he, if_neg hf]
      exact ⟨fun hn => absurd rfl hn, fun ho => (ho.elim he hf).elim⟩

theorem errorInj_iff {c d : UInt64} (hc : c < topBit) (hd : d < topBit) :
    (statusErrorCode c = statusErrorCode d → c = d) ↔ c = d := by
  rw [statusErrorCode_eq_zero hc, statusErrorCode_eq_zero hd]
  exact ⟨fun h => h rfl, fun h _ => h⟩

theorem errorNeWarning_iff {c d : UInt64} (hc : c < topBit) :
    statusErrorCode c ≠ statusWarningCode d ↔ d ≠ 0 := by
  rw [statusErrorCode_eq_zero hc, statusWarningCode, ne_comm]

/-- The contract holds where it says nothing about errors, and there only. -/
theorem contract_iff (w c d : UInt64) (e f : Enumerator) :
    Contract w c d e f ↔ w < topBit ∧ topBit ≤ c ∧ e.kind ≠ .error ∧
      (e.declared = f.declared ∨ e.kind = .warning ∨ f.kind = .warning) := by
  constructor
  · intro h
    refine ⟨?_, ?_, fun he => h.errorNeSuccess he (status_of_error he), ?_⟩
    · by_contra hw
      have hle := UInt64.not_lt.mp hw
      exact statusErrorCode_clear_ne hle (h.roundTrip hle)
    · by_contra hc
      have hlt := UInt64.not_le.mp hc
      have ht := h.errorIsError hlt
      rw [statusIsError_statusErrorCode hlt] at ht
      cases ht
    · by_cases hd : e.declared = f.declared
      · exact Or.inl hd
      · exact Or.inr ((status_ne_iff hd).mp (h.distinct hd))
  · rintro ⟨hw, hc, he, hd⟩
    have hw' : ¬ topBit ≤ w := UInt64.not_le.mpr hw
    have hc' : ¬ c < topBit := UInt64.not_lt.mpr hc
    exact {
      roundTrip := fun h => absurd h hw'
      errorIsError := fun h => absurd h hc'
      warningIsNoError := statusIsError_statusWarningCode
      errorInj := fun h => absurd h hc'
      errorNeWarning := fun h => absurd h hc'
      distinct := fun h => (status_ne_iff h).mpr (hd.resolve_left h)
      errorNeSuccess := fun h => absurd h he
      errorTests := fun h => absurd h he
      isErrorNot := operatorNot_of_statusIsError }

/-- **When the encoding meets its contract.** As a whole, never where an error word, an error code
or an error enumerator is looked at. Part by part: warnings are told apart from everything, errors
are told apart from nothing but warnings, and the two tests agree with each other on every word. -/
theorem contract_exact (w c d : UInt64) (e f : Enumerator) :
    (Contract w c d e f ↔ w < topBit ∧ topBit ≤ c ∧ e.kind ≠ .error ∧
      (e.declared = f.declared ∨ e.kind = .warning ∨ f.kind = .warning)) ∧
    (topBit ≤ w → statusErrorCode (clear w) ≠ w) ∧
    (c < topBit → statusIsError ⟨statusErrorCode c⟩ = false) ∧
    (d < topBit → statusIsError ⟨statusWarningCode d⟩ = false) ∧
    (c < topBit → d < topBit → ((statusErrorCode c = statusErrorCode d → c = d) ↔ c = d)) ∧
    (c < topBit → (statusErrorCode c ≠ statusWarningCode d ↔ d ≠ 0)) ∧
    (e.declared ≠ f.declared → (e.status ≠ f.status ↔ e.kind = .warning ∨ f.kind = .warning)) ∧
    (e.kind = .error → e.status = Enumerator.success.status ∧
      operatorNot e.status = false ∧ statusIsError e.status = false) ∧
    (statusIsError ⟨w⟩ = true → operatorNot ⟨w⟩ = true) := by
  refine ⟨contract_iff w c d e f, statusErrorCode_clear_ne, statusIsError_statusErrorCode,
    statusIsError_statusWarningCode, errorInj_iff, errorNeWarning_iff, status_ne_iff,
    fun he => ⟨status_of_error he, operatorNot_of_error he, statusIsError_of_error he⟩,
    operatorNot_of_statusIsError⟩

/-- The firmware's word for `InvalidParameter` is lost, and with it every part of the contract that
is about errors. -/
theorem contract_fails_invalidParameter :
    ¬ Contract 0x8000000000000002 2 2 .invalidParameter .notFound ∧
      statusErrorCode (clear 0x8000000000000002) = 0 ∧
      Enumerator.invalidParameter.status = Enumerator.success.status := by
  refine ⟨fun hC => ?_, by decide, by decide⟩
  exact absurd (hC.roundTrip (by decide)) (by decide)

end MuchCoolEfi.Core.StatusCode
