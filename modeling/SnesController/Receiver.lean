import SnesController.KeyPath

/-!
# The receiver stays on

`keypad_receiver_init` starts a receive of two bytes, and `uart_event_handler` starts the next
one when a receive is completed. A line error also ends the receive, and its case of the
handler only logs: the receiver is on after every UART event exactly when none of them is an
error (`listening_iff`).

`pending` is the receive in progress in the driver, and `UartLaws` what the driver does with
it.
-/

namespace SnesController

open EventRun

variable {sdk : Sdk} {pending : sdk.Uart → Option RxRequest}

/-- **The UART driver**: a receive is started when none is pending, and ended by its completion
and by a line error, before the handler is called. -/
structure UartLaws (sdk : Sdk) (pending : sdk.Uart → Option RxRequest) : Prop where
  rx : ∀ u r, pending u = none →
    (sdk.uartCall u (.nrfDrvUartRx r)).1 = .success ∧
      pending (sdk.uartCall u (.nrfDrvUartRx r)).2 = some r
  calls : ∀ u c, (∀ r, c ≠ .nrfDrvUartRx r) → pending (sdk.uartCall u c).2 = pending u
  rxDone : ∀ u b₀ b₁, pending (sdk.uartDeliver u (.uart (.rxDone b₀ b₁))) = none
  error : ∀ u, pending (sdk.uartDeliver u (.uart .error)) = none
  events : ∀ u e, (∀ b₀ b₁, e ≠ .uart (.rxDone b₀ b₁)) → e ≠ .uart .error →
    pending (sdk.uartDeliver u e) = pending u

/-- When the handler of a UART event returns, the keypad's receive is pending. -/
def Listening (pending : sdk.Uart → Option RxRequest) (s : State sdk) (i : Input) : Prop :=
  ∀ e, i.evt = .uart e → pending (step s i).uart = some keypadRx

/-- Only the handlers of UART events touch the driver. -/
theorem step_uart_of_ne {s : State sdk} {i : Input} (h : ∀ e, i.evt ≠ .uart e) :
    (step s i).uart = sdk.uartDeliver s.uart i.evt := (step_handled s i).uart_eq h

theorem step_uart_rxDone (s : State sdk) (b₀ b₁ : UInt8) (u : ErrCode) :
    (step s ⟨.uart (.rxDone b₀ b₁), u⟩).uart =
      (sdk.uartCall (sdk.uartDeliver s.uart (.uart (.rxDone b₀ b₁)))
        (.nrfDrvUartRx keypadRx)).2 := by
  by_cases h : combinedState (b₀, b₁) = s.keypadState
  · rw [step_rxDone_of_eq u h]
    rfl
  · obtain ⟨l, rs, b, es, heq, -⟩ := keysSend_handed (changedState s b₀ b₁) u 2 .keypadState
    rw [step_rxDone_of_ne u h, heq]
    rfl

/-- The receiver is on at the main loop's start. -/
theorem UartLaws.boot (laws : UartLaws sdk pending) (link : sdk.Link) (pm : sdk.Pm)
    {uart : sdk.Uart} (hidle : pending uart = none) :
    pending (SnesController.boot link pm uart).uart = some keypadRx := by
  have hinit : pending (sdk.uartCall (sdk.uartCall uart (.nrfDrvUartInit 4800 9)).2
      .nrfDrvUartRxEnable).2 = none := by
    rw [laws.calls _ .nrfDrvUartRxEnable nofun, laws.calls _ (.nrfDrvUartInit 4800 9) nofun, hidle]
  exact (laws.rx _ keypadRx hinit).2

/-- A completed receive is followed by the next. -/
theorem UartLaws.rxDone_pending (laws : UartLaws sdk pending) (s : State sdk) (b₀ b₁ : UInt8)
    (u : ErrCode) : pending (step s ⟨.uart (.rxDone b₀ b₁), u⟩).uart = some keypadRx := by
  rw [step_uart_rxDone]
  exact (laws.rx _ keypadRx (laws.rxDone _ b₀ b₁)).2

/-- An error leaves the receiver off. -/
theorem UartLaws.error_pending (laws : UartLaws sdk pending) (s : State sdk) (u : ErrCode) :
    pending (step s ⟨.uart .error, u⟩).uart = none := laws.error s.uart

/-- Every event but an error keeps the receiver on. -/
theorem UartLaws.step_pending (laws : UartLaws sdk pending) {s : State sdk} {i : Input}
    (h : pending s.uart = some keypadRx) (hi : i.evt ≠ .uart .error) :
    pending (step s i).uart = some keypadRx := by
  by_cases hu : ∃ e, i.evt = .uart e
  · obtain ⟨e, u⟩ := i
    obtain ⟨e, rfl⟩ := hu
    cases e with
    | rxDone b₀ b₁ => exact laws.rxDone_pending s b₀ b₁ u
    | error => exact absurd rfl hi
    | txDone => exact (laws.events s.uart (.uart .txDone) nofun nofun).trans h
  · rw [step_uart_of_ne (fun e he => hu ⟨e, he⟩),
      laws.events _ _ (fun b₀ b₁ he => hu ⟨.rxDone b₀ b₁, he⟩) hi, h]

/-- **The receiver never goes deaf exactly when there is no line error**: in a run of any
kind, the keypad's two-byte receive is pending after every UART event just when no UART event
is an error. -/
theorem listening_iff (laws : UartLaws sdk pending) (link : sdk.Link) (pm : sdk.Pm)
    {uart : sdk.Uart} (hidle : pending uart = none) (es : List Input) :
    Along step (Listening pending) (boot link pm uart) es ↔ ∀ i ∈ es, i.evt ≠ .uart .error := by
  have hinputs : Along step (fun _ i => i.evt ≠ .uart .error) (boot link pm uart) es ↔
      ∀ i ∈ es, i.evt ≠ .uart .error := along_inputs
  rw [← hinputs]
  refine along_iff_of_inv (I := fun s => pending s.uart = some keypadRx)
    (fun s i h _ hi => laws.step_pending h hi) ?_ (along_true _ es)
    (laws.boot link pm hidle)
  intro s i h _
  constructor
  · intro hT he
    obtain ⟨e, u⟩ := i
    dsimp only at he
    subst he
    have hon := hT .error rfl
    rw [laws.error_pending] at hon
    cases hon
  · intro hi _ _
    exact laws.step_pending h hi

/-! ### On an SDK -/

theorem device_uartLaws (txBuffers : ℕ) :
    UartLaws (device txBuffers) (devicePending txBuffers) where
  rx := by
    intro u r hu
    obtain rfl : u = (none : Option RxRequest) := hu
    exact ⟨rfl, rfl⟩
  calls := by
    intro u c hc
    cases c with
    | nrfDrvUartRx r => exact absurd rfl (hc r)
    | _ => rfl
  rxDone _ _ _ := rfl
  error _ := rfl
  events := by
    intro u e hr he
    cases e with
    | uart e =>
      cases e with
      | rxDone b₀ b₁ => exact absurd rfl (hr b₀ b₁)
      | error => exact absurd rfl he
      | txDone => rfl
    | _ => rfl

/-- Frames, repeated and not, and completed transmissions. -/
theorem listening_frames :
    Along step (Listening (devicePending 3)) (deviceBoot 3)
      [frame 0 1, frame 0 1, ⟨.uart .txDone, .success⟩, txComplete 3, frame 0 2] :=
  (listening_iff (device_uartLaws 3) (deviceLink 3) (devicePm 3) rfl _).mpr (by decide)

/-- After one error the receiver is off. -/
theorem deaf_after_error :
    ¬ Along step (Listening (devicePending 3)) (deviceBoot 3)
      [frame 0 1, ⟨.uart .error, .success⟩] := by
  intro h
  have hon : none = some keypadRx := h.2.1 .error rfl
  cases hon

end SnesController
