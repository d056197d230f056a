import SnesController.Services

/-!
# The keypad receiver

`my_keypad.c`: the keypad sends its state over the UART, two bytes a frame, the high byte
first. A frame that changes the state is passed to `keys_send` as a pointer to
`keypad_state`, and the next receive is started. The log output is left out.
-/

namespace SnesController

variable {sdk : Sdk}

/-- The state a frame carries: `rx_buffer[0] << 8 | rx_buffer[1]`. -/
def combinedState (rx : UInt8 × UInt8) : UInt16 := rx.1.toUInt16 <<< 8 ||| rx.2.toUInt16

/-- A call of the UART driver whose answer is not looked at. -/
def uartCall (s : State sdk) (c : UartCall) : State sdk :=
  { s with uart := (sdk.uartCall s.uart c).2 }

/-- The receive the keypad waits for: two bytes into `rx_buffer`. -/
def keypadRx : RxRequest := ⟨.rxBuffer, 2⟩

/-- The test for a change of state, and `keys_send` if there is one. -/
def keypadChanged (s : State sdk) (uninit : ErrCode) : State sdk :=
  if combinedState s.rxBuffer ≠ s.keypadState then
    keysSend { s with keypadState := combinedState s.rxBuffer } uninit 2 .keypadState
  else s

/-- `uart_event_handler`. -/
def uartEventHandler (s : State sdk) (uninit : ErrCode) : UartEvt → State sdk
  | .rxDone _ _ => uartCall (keypadChanged s uninit) (.nrfDrvUartRx keypadRx)
  | .error => s
  | .txDone => s

/-- `keypad_receiver_init`, without the wake-up pin. -/
def keypadReceiverInit (s : State sdk) : State sdk :=
  let s := uartCall s (.nrfDrvUartInit 4800 9)
  let s := uartCall s .nrfDrvUartRxEnable
  uartCall s (.nrfDrvUartRx keypadRx)

/-- What `uart_event_handler` may change; only a completed receive calls the driver. -/
theorem uartEventHandler_frame (s : State sdk) (uninit : ErrCode) (e : UartEvt) :
    ∃ l rs b es k d, uartEventHandler s uninit e =
      { s.handed l rs with bufferList := b, errors := es, keypadState := k, uart := d } := by
  cases e with
  | error | txDone => exact ⟨s.link, [], _, _, _, _, by rw [handed_nil]; rfl⟩
  | rxDone b₀ b₁ =>
    simp only [uartEventHandler, keypadChanged]
    split_ifs
    · obtain ⟨l, rs, b, es, heq, -⟩ := keysSend_handed
        { s with keypadState := combinedState s.rxBuffer } uninit 2 .keypadState
      exact ⟨l, rs, b, es, _, _, by rw [heq]; rfl⟩
    · exact ⟨s.link, [], _, _, _, _, by rw [handed_nil]; rfl⟩

/-! ### The encodings of the keypad's state -/

/-- The report of a key state: its two bytes, low byte first, and two zeros. -/
def statePayload (v : UInt16) : List UInt8 := leBytes v ++ [0, 0]

/-- The bytes of a frame are the digits of its state, high byte first. -/
theorem toNat_combinedState (b₀ b₁ : UInt8) :
    (combinedState (b₀, b₁)).toNat = b₀.toNat * 256 + b₁.toNat := by
  have h₀ : b₀.toNat < 2 ^ 8 := b₀.toNat_lt
  have h₁ : b₁.toNat < 2 ^ 8 := b₁.toNat_lt
  have hshift : b₀.toNat <<< 8 % 2 ^ 16 = b₀.toNat <<< 8 :=
    Nat.mod_eq_of_lt (by rw [Nat.shiftLeft_eq]; omega)
  simp only [combinedState, UInt16.toNat_or, UInt16.toNat_shiftLeft, UInt8.toNat_toUInt16]
  rw [show (8 : UInt16).toNat % 16 = 8 from rfl, hshift,
    ← Nat.shiftLeft_add_eq_or_of_lt h₁, Nat.shiftLeft_eq]

/-- The bytes of a report are the digits of the state, low byte first. -/
theorem leNat_statePayload (v : UInt16) : ReportMap.leNat (statePayload v) = v.toNat := by
  have hv : v.toNat < 2 ^ 16 := v.toNat_lt
  simp only [statePayload, leBytes, List.cons_append, List.nil_append, ReportMap.leNat,
    UInt16.toNat_toUInt8, UInt16.toNat_shiftRight, UInt8.toNat_zero]
  rw [show (8 : UInt16).toNat % 16 = 8 from rfl, Nat.shiftRight_eq_div_pow]
  omega

theorem statePayload_injective : Function.Injective statePayload := by
  intro v w h
  have hleNat : ReportMap.leNat (statePayload v) = ReportMap.leNat (statePayload w) := by rw [h]
  rw [leNat_statePayload, leNat_statePayload] at hleNat
  exact UInt16.toNat_inj.mp hleNat

/-- A pattern pointing to `keypad_state` is sent as the report of the state. -/
theorem reportData_keypadState (s : State sdk) :
    reportData s .keypadState 2 = statePayload s.keypadState := rfl

/-- **The three encodings agree**: button `k + 1` of the report of a frame's state is bit `k`
of the frame, its first byte the high one. -/
theorem pressed_statePayload (b₀ b₁ : UInt8) {k : ℕ} (hk : k < 12) :
    ReportMap.pressed reportMapData joystickReportId.toNat
      (statePayload (combinedState (b₀, b₁))) (k + 1) =
        some ((b₀.toNat * 256 + b₁.toNat).testBit k) := by
  have hfind : (ReportMap.inputs reportMapData).find? (fun i =>
      i.reportId = joystickReportId.toNat ∧ i.usagePage = ReportMap.buttonPage ∧ i.has (k + 1)) =
        some ⟨3, ReportMap.buttonPage, 1, 12, 0, 1, 12⟩ := by
    rw [inputs_reportMapData]
    apply List.find?_cons_of_pos
    have hhas : (⟨3, ReportMap.buttonPage, 1, 12, 0, 1, 12⟩ : ReportMap.Input).has (k + 1) :=
      ⟨show 1 ≤ k + 1 by omega, show k + 1 ≤ 12 by omega, show k + 1 - 1 < 12 by omega⟩
    exact decide_eq_true ⟨rfl, rfl, hhas⟩
  unfold ReportMap.pressed
  rw [hfind, Option.map_some, ReportMap.Input.value_one_bit rfl, leNat_statePayload,
    toNat_combinedState]
  simp

end SnesController
