import Mathlib.Algebra.Group.Int.Defs

/-! # Floating-point numbers that become integers

A `float` is a binary32 number, `Float32`. Its product with an integer is the rounded one. Converted to
an integer it loses its fractional part, and the conversion is defined if what is left is a value of
the type. -/

namespace MuchCoolEfi.Cxx.Binary32

open Float.Model (UnpackedFloat)

/-- The integer part, where it is a value of the type. -/
def truncate? : UnpackedFloat → Option UInt64
  | .notANumber | .infinity _ => none
  | u =>
    let n := u.toInt 0 0
    if 0 ≤ n ∧ n < 2 ^ 64 then some (UInt64.ofNat n.toNat) else none

/-- `static_cast<uint64_t>(x)`, where it is defined. -/
def toUInt64? (x : Float32) : Option UInt64 := truncate? x.toModel.unpack

/-- `static_cast<uint64_t>(x * factor)`; the factor is an integer, and converted first. -/
def scaled? (factor : ℕ) (x : Float32) : Option UInt64 := toUInt64? (x * .ofNat factor)

end MuchCoolEfi.Cxx.Binary32
