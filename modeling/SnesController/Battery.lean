import SnesController.Globals

/-!
# The battery sensor

`adc_event_handler` of `my_battery.c`: the average of the samples, scaled to millivolts,
as a percentage to the battery service.
-/

namespace SnesController

variable {sdk : Sdk}

/-- `ADC_RESULT_IN_MILLI_VOLTS`. -/
def adcResultInMilliVolts (adcValue : ℕ) : ℕ := adcValue * 2225 / 1023 * 3

/-- `adc_sum_value`: the samples added up in a `uint16_t`. -/
def adcSumValue (samples : List ℕ) : ℕ := samples.foldl (fun sum x => u16 (sum + x)) 0

/-- `adc_result_millivolts`. -/
def adcResultMillivolts (samples : List ℕ) : ℕ :=
  u16 (adcResultInMilliVolts (u16 (adcSumValue samples / samples.length)))

/-- `adc_event_handler`. -/
def adcEventHandler (s : State sdk) (e : AdcEvt) : State sdk :=
  let s := { s with link := (sdk.linkCall s.link .sdClockHfclkRelease).2 }
  match e with
  | .done samples =>
    let r := sdk.linkCall s.link (.bleBasBatteryLevelUpdate
      (u8 (sdk.batteryLevelInPercent (adcResultMillivolts samples))))
    appErrorHandlerIf (r.1 ≠ .success ∧ r.1 ≠ .invalidState ∧ r.1 ≠ .noTxPackets ∧
      r.1 ≠ .gattsSysAttrMissing) { s with link := r.2 } r.1
  | .other => s

/-- What `adc_event_handler` may change. -/
theorem adcEventHandler_frame (s : State sdk) (e : AdcEvt) :
    ∃ l es, adcEventHandler s e = { s with link := l, errors := es } := by
  cases e <;> exact ⟨_, _, rfl⟩

end SnesController
