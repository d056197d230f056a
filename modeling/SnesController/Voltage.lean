import SnesController.Firmware
import SnesController.Library.Truncation
import Mathlib.Algebra.Order.BigOperators.Group.List
import Mathlib.Tactic.Ring
import Mathlib.Tactic.NormNum
import Mathlib.Tactic.GCongr

/-!
# The battery voltage

`adc_event_handler` adds up six samples of ten bits in a `uint16_t`, and the average is scaled to
millivolts with a division that truncates, as the average's does, before the multiplication by
three. Nothing wraps, and the result is below the exact voltage by less than 9 mV and grows with
every sample (`voltage_exact`).

The driver reports a conversion done with as many samples as were asked for.
-/

namespace SnesController

open Truncation

/-- `ADC_BUFFER_SIZE`. -/
def adcBufferSize : ℕ := 6

/-- **A completed conversion buffer.** -/
structure Conversion where
  samples : List ℕ
  size : samples.length = adcBufferSize
  tenBit : ∀ x ∈ samples, x ≤ 1023

/-- The exact voltage in millivolts. -/
def Conversion.voltage (c : Conversion) : ℚ := 3 * 2225 * c.samples.sum / (6 * 1023)

/-- `adc_average_value`. -/
def adcAverageValue (samples : List ℕ) : ℕ := u16 (adcSumValue samples / samples.length)

theorem adcResultMillivolts_eq (samples : List ℕ) :
    adcResultMillivolts samples = u16 (adcResultInMilliVolts (adcAverageValue samples)) := rfl

/-- **Nothing wraps and nothing is divided by zero**: the sum fits its `uint16_t` after every
sample, and so does the average; the product is an `int`; and the result fits its `uint16_t`. -/
structure NoWrap (samples : List ℕ) : Prop where
  sum : ∀ p x, p ++ [x] <+: samples → adcSumValue p + x < 2 ^ 16
  size : samples.length ≠ 0
  average : adcSumValue samples / samples.length < 2 ^ 16
  product : adcAverageValue samples * 2225 < 2 ^ 31
  result : adcResultInMilliVolts (adcAverageValue samples) < 2 ^ 16

theorem adcSumValue_concat (samples : List ℕ) (x : ℕ) :
    adcSumValue (samples ++ [x]) = u16 (adcSumValue samples + x) := by
  simp [adcSumValue]

/-- A sum that fits is added up exactly. -/
theorem adcSumValue_eq {samples : List ℕ} (h : samples.sum < 65536) :
    adcSumValue samples = samples.sum := by
  induction samples using List.reverseRecOn with
  | nil => rfl
  | append_singleton samples x ih =>
    rw [List.sum_append, List.sum_singleton] at h ⊢
    rw [adcSumValue_concat, ih (by omega), u16_of_lt h]

/-- Six samples of ten bits. -/
theorem Conversion.sum_le (c : Conversion) : c.samples.sum ≤ 6 * 1023 := by
  have h := List.sum_le_card_nsmul c.samples 1023 c.tenBit
  rwa [c.size, smul_eq_mul] at h

theorem Conversion.adcAverageValue_eq (c : Conversion) :
    adcAverageValue c.samples = c.samples.sum / 6 := by
  have hsum := c.sum_le
  rw [adcAverageValue, adcSumValue_eq (by omega), c.size]
  apply u16_of_lt
  simp only [adcBufferSize]
  omega

/-- So the result is the formula's, in natural numbers. -/
theorem Conversion.adcResultMillivolts_eq (c : Conversion) :
    adcResultMillivolts c.samples = c.samples.sum / 6 * 2225 / 1023 * 3 := by
  have hsum := c.sum_le
  rw [SnesController.adcResultMillivolts_eq, c.adcAverageValue_eq]
  apply u16_of_lt
  simp only [adcResultInMilliVolts]
  omega

theorem Conversion.noWrap (c : Conversion) : NoWrap c.samples := by
  have hsum := c.sum_le
  refine ⟨fun p x hp => ?_, ?_, ?_, ?_, ?_⟩
  · have hle : (p ++ [x]).sum ≤ c.samples.sum := hp.sublist.sum_le_sum fun _ _ => Nat.zero_le _
    rw [List.sum_append, List.sum_singleton] at hle
    rw [adcSumValue_eq (by omega)]
    omega
  · rw [c.size]
    exact Nat.succ_ne_zero 5
  · rw [adcSumValue_eq (by omega), c.size]
    simp only [adcBufferSize]
    omega
  · rw [c.adcAverageValue_eq]
    omega
  · rw [c.adcAverageValue_eq]
    simp only [adcResultInMilliVolts]
    omega

/-- The shortfall, operation by operation. -/
theorem Conversion.short (c : Conversion) :
    Short (adcResultMillivolts c.samples) c.voltage
      (((0 + (6 - 1)) / 6 * 2225 + (1023 - 1)) / 1023 * 3) := by
  have h := ((((Short.exact (K := ℚ) c.samples.sum).div (d := 6) (by omega)).mul 2225).div
    (d := 1023) (by omega)).mul 3
  rw [c.adcResultMillivolts_eq]
  have hvoltage : c.voltage = c.samples.sum / (6 : ℕ) * (2225 : ℕ) / (1023 : ℕ) * (3 : ℕ) := by
    simp only [Conversion.voltage]
    push_cast
    ring
  rw [hvoltage]
  exact_mod_cast h

/-- Larger samples do not give a lower result. -/
theorem Conversion.adcResultMillivolts_mono {c d : Conversion}
    (h : List.Forall₂ (· ≤ ·) c.samples d.samples) :
    adcResultMillivolts c.samples ≤ adcResultMillivolts d.samples := by
  have hsum : c.samples.sum ≤ d.samples.sum := List.Forall₂.sum_le_sum h
  rw [c.adcResultMillivolts_eq, d.adcResultMillivolts_eq]
  gcongr

/-- **The battery voltage**: for every completed conversion, nothing wraps, the result is at most
the exact voltage and short of it by less than 9 mV, and raising samples does not lower it. -/
theorem voltage_exact (c : Conversion) :
    NoWrap c.samples ∧ (adcResultMillivolts c.samples : ℚ) ≤ c.voltage ∧
      c.voltage - adcResultMillivolts c.samples < 9 ∧
      ∀ d : Conversion, List.Forall₂ (· ≤ ·) c.samples d.samples →
        adcResultMillivolts c.samples ≤ adcResultMillivolts d.samples := by
  have hshort := c.short
  refine ⟨c.noWrap, hshort.le, ?_, fun d h => Conversion.adcResultMillivolts_mono h⟩
  calc c.voltage - adcResultMillivolts c.samples
      ≤ ((0 + (6 - 1)) / 6 * 2225 + (1023 - 1)) / 1023 * 3 := by
        have := hshort.short
        linarith
    _ < 9 := by norm_num

/-- One sample is raised. -/
theorem voltage_exact_raised :
    adcResultMillivolts [500, 500, 500, 500, 500, 500] ≤
      adcResultMillivolts [500, 500, 500, 1023, 500, 500] :=
  (voltage_exact ⟨[500, 500, 500, 500, 500, 500], rfl, by decide⟩).2.2.2
    ⟨[500, 500, 500, 1023, 500, 500], rfl, by decide⟩ (by decide)

end SnesController
