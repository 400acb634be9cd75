import MuchCoolEfi.Cxx.Scaling
import MuchCoolEfi.Firmware.Services

/-! # Stalling for seconds

The one method that computes something: `stall(float)` multiplies, rounds and truncates. It is defined
unless the microseconds come near -1 or `2 ^ 64` (`stall_defined_iff`). The firmware then stalls for as
many as were asked for, but for less than one and a relative error of `2 ^ -24` (`stall_accurate`), and
never shorter when asked for longer (`stall_mono`). -/

namespace MuchCoolEfi.Firmware.Stall

open MuchCoolEfi.Cxx.Forwarding MuchCoolEfi.Cxx.Binary32 MuchCoolEfi.Cxx.Scaling
open MuchCoolEfi.Firmware.Services
open MuchCoolEfi.Firmware.Services.BootServices

/-- `microseconds_per_second`, converted: a `float` has it exactly. -/
theorem unpack_factor : (Float32.ofNat stallSeconds.factor).toModel.unpack =
    .finite .positive 16000000 (-4) (by decide) :=
  rfl

theorem factor_eq : ((16000000 : ℕ) * 2 ^ (-4 : ℤ) : ℚ) = stallSeconds.factor := by
  norm_num [stallSeconds]

variable {seconds seconds' : Float32} {v v' : ℚ} {n n' : UInt64}

theorem call?_eq_iff : stallSeconds.call? seconds = some ⟨.stall, [.word n]⟩ ↔
    scaled? stallSeconds.factor seconds = some n := by
  unfold Conversion.call?
  rw [Option.map_eq_some_iff]
  constructor
  · rintro ⟨n', hn', he⟩
    cases he
    exact hn'
  · intro h
    exact ⟨n, h, rfl⟩

/-- **When stalling for seconds is defined.** -/
theorem stall_defined_iff (seconds : Float32) : (stallSeconds.call? seconds).isSome ↔
    ∃ v, value? seconds = some v ∧
      -(1 - 1 / 2 ^ 25) < 1000000 * v ∧ 1000000 * v < 2 ^ 64 - 2 ^ 39 := by
  unfold Conversion.call?
  rw [Option.isSome_map]
  exact scaled?_isSome_iff unpack_factor (by decide) factor_eq

/-- **How long the firmware stalls.** -/
theorem stall_accurate (hv : value? seconds = some v)
    (hn : stallSeconds.call? seconds = some ⟨.stall, [.word n]⟩) :
    |(n.toNat : ℚ) - 1000000 * v| < 1 + |1000000 * v| / 2 ^ 24 :=
  abs_scaled?_sub_lt unpack_factor (by decide) factor_eq hv (call?_eq_iff.mp hn)

/-- A tenth of a second, and half a second. -/
def tenth : Float32 := .ofBits 0x3dcccccd
def half : Float32 := .ofBits 0x3f000000

theorem value?_tenth : value? tenth = some (13421773 / 2 ^ 27) := by
  have h : value? tenth = some (((13421773 : ℤ) : ℚ) * 2 ^ (-27 : ℤ)) := rfl
  rw [h]
  norm_num

theorem value?_half : value? half = some (1 / 2) := by
  have h : value? half = some (((8388608 : ℤ) : ℚ) * 2 ^ (-24 : ℤ)) := rfl
  rw [h]
  norm_num

theorem call?_tenth : stallSeconds.call? tenth = some ⟨.stall, [.word 100000]⟩ := rfl

theorem call?_half : stallSeconds.call? half = some ⟨.stall, [.word 500000]⟩ := rfl

theorem stall_accurate_tenth :
    |((100000 : UInt64).toNat : ℚ) - 1000000 * (13421773 / 2 ^ 27)| <
      1 + |1000000 * (13421773 / 2 ^ 27)| / 2 ^ 24 :=
  stall_accurate value?_tenth call?_tenth

/-- **Longer is not shorter.** -/
theorem stall_mono (hv : value? seconds = some v) (hv' : value? seconds' = some v') (hle : v ≤ v')
    (hn : stallSeconds.call? seconds = some ⟨.stall, [.word n]⟩)
    (hn' : stallSeconds.call? seconds' = some ⟨.stall, [.word n']⟩) : n ≤ n' :=
  scaled?_mono unpack_factor (by decide) factor_eq hv hv' hle (call?_eq_iff.mp hn)
    (call?_eq_iff.mp hn')

theorem stall_mono_tenth : (100000 : UInt64) ≤ 500000 :=
  stall_mono value?_tenth value?_half (by norm_num) call?_tenth call?_half

end MuchCoolEfi.Firmware.Stall
