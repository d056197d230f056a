import SnesController.KeyPath
import SnesController.Library.HiddenInput

/-!
# The uninitialised status

In boot mode `send_key_scan_press_release` makes no call and returns an `err_code` that it never
assigned. `keys_send` and `buffer_dequeue` act on it: they report an error, buffer the change,
and keep or remove the entry, as the value happens to say. So two runs of the same events agree
whatever `err_code` holds exactly when no key change is sent, and no entry dequeued, in boot mode
(`sends_indifferent_iff`).

The value of `err_code` is the hidden input (`HiddenInput`). What is compared is the reports handed
to the link, the entries buffered, and whether `keys_send` called the error handler.
-/

namespace SnesController

open EventRun HiddenInput

variable {sdk : Sdk}

/-- An event, handled while an uninitialised `err_code` holds `uninit`. -/
def stepWith (s : State sdk) (e : Event) (uninit : ErrCode) : State sdk := step s ⟨e, uninit⟩

/-- What can be seen of an event's handling. -/
structure Outcome where
  /-- The reports handed to the link so far. -/
  reports : List Report
  /-- The entries in the buffer. -/
  buffered : List BufferEntry
  /-- Whether `keys_send` has called `APP_ERROR_HANDLER`. -/
  keysSendError : Bool
  deriving DecidableEq

/-- What can be seen when the event has been handled. -/
def outcome (s : State sdk) (e : Event) (uninit : ErrCode) : Outcome where
  reports := (stepWith s e uninit).reports
  buffered := (stepWith s e uninit).bufferList.queue
  keysSendError := callsKeysSend s e && (stepWith s e uninit).errors ≠ s.errors

/-- Whether the event transmits in boot mode: a frame that changes the key state, or a completed
transmission with an entry buffered. -/
def sendsInBootMode (s : State sdk) (e : Event) : Bool :=
  s.mInBootMode && (callsKeysSend s e ||
    match e with
    | .ble (.txComplete _) => s.bufferList.count ≠ 0
    | _ => false)

/-! ### Outside boot mode -/

/-- In report mode `err_code` is assigned before it is read. -/
theorem send_reportMode {s : State sdk} (hmode : s.mInBootMode = false) (u u' : ErrCode)
    (pHids : HidsPtr) (p : PatternPtr) (patternLen patternOffset : ℕ) :
    sendKeyScanPressRelease s u pHids p patternLen patternOffset =
      sendKeyScanPressRelease s u' pHids p patternLen patternOffset := by
  unfold sendKeyScanPressRelease sendLoop
  rw [sendPass_reportMode hmode, sendPass_reportMode hmode]

theorem keysSend_reportMode {s : State sdk} (hmode : s.mInBootMode = false) (u u' : ErrCode)
    (len : ℕ) (p : PatternPtr) : keysSend s u len p = keysSend s u' len p := by
  simp only [keysSend, send_reportMode hmode u u']

theorem bufferDequeue_reportMode {s : State sdk} (hmode : s.mInBootMode = false) (u u' : ErrCode)
    (txFlag : Bool) : bufferDequeue s u txFlag = bufferDequeue s u' txFlag := by
  simp only [bufferDequeue, send_reportMode hmode u u']

/-- A dequeue without transmission does not read `err_code`. -/
theorem bufferDequeue_flush (s : State sdk) (u u' : ErrCode) :
    bufferDequeue s u false = bufferDequeue s u' false := rfl

/-- **Only a transmission in boot mode depends on `err_code`.** -/
theorem stepWith_eq {s : State sdk} {e : Event} (h : sendsInBootMode s e = false)
    (u u' : ErrCode) : stepWith s e u = stepWith s e u' := by
  simp only [stepWith]
  cases e with
  | uart e =>
    cases e with
    | rxDone b₀ b₁ =>
      by_cases hne : combinedState (b₀, b₁) = s.keypadState
      · rw [step_rxDone_of_eq u hne, step_rxDone_of_eq u' hne]
      · have hmode : s.mInBootMode = false := by
          simpa [sendsInBootMode, callsKeysSend, hne] using h
        rw [step_rxDone_of_ne u hne, step_rxDone_of_ne u' hne,
          keysSend_reportMode (s := changedState s b₀ b₁) hmode u u']
    | error | txDone => rfl
  | ble e =>
    cases e with
    | txComplete n =>
      rw [step_txComplete, step_txComplete]
      by_cases hc : s.bufferList.count = 0
      · rw [bufferDequeue_empty (s := deliver s (.ble (.txComplete n))) u true hc,
          bufferDequeue_empty (s := deliver s (.ble (.txComplete n))) u' true hc]
      · have hmode : s.mInBootMode = false := by
          simpa [sendsInBootMode, callsKeysSend, hc] using h
        rw [bufferDequeue_reportMode (s := deliver s (.ble (.txComplete n))) hmode u u']
    | disconnected =>
      rw [step_disconnected, step_disconnected, bufferDequeue_flush _ u u']
    | _ => rfl
  | _ => rfl

/-! ### In boot mode -/

/-- In boot mode `keys_send` hands nothing over; it buffers the change or reports an error,
according to what `err_code` held. -/
theorem keysSend_bootMode {s : State sdk} (uninit : ErrCode) (p : PatternPtr) {len : ℕ}
    (hmode : s.mInBootMode = true) (hlen : len + 1 < 65536) :
    keysSend s uninit len p =
      appErrorHandlerIf (uninit ≠ .success ∧ uninit ≠ .invalidState ∧ uninit ≠ .noTxPackets ∧
          uninit ≠ .gattsSysAttrMissing)
        (if uninit = .noTxPackets then
          { s with bufferList := (bufferEnqueue s.bufferList .mHids p len 0).2 }
        else s) uninit := by
  have hsend := sendLoop_bootMode (len + 2) uninit .mHids p hmode (Nat.sub_zero len).symm
    (by omega) (by omega)
  unfold keysSend sendKeyScanPressRelease
  rw [hsend]
  by_cases htx : uninit = .noTxPackets
  · subst htx
    simp
  · simp only [htx, false_and, if_false]

/-- A change sent in boot mode calls the error handler or not, as `err_code` says. -/
theorem keysSendError_bootMode {s : State sdk} (hmode : s.mInBootMode = true) {b₀ b₁ : UInt8}
    (hne : combinedState (b₀, b₁) ≠ s.keypadState) :
    (outcome s (.uart (.rxDone b₀ b₁)) .success).keysSendError = false ∧
      (outcome s (.uart (.rxDone b₀ b₁)) (.other 0)).keysSendError = true := by
  have hmode' : (changedState s b₀ b₁).mInBootMode = true := hmode
  have hquiet : (stepWith s (.uart (.rxDone b₀ b₁)) .success).errors = s.errors := by
    rw [stepWith, step_rxDone_of_ne _ hne,
      keysSend_bootMode .success .keypadState hmode' (by omega)]
    rfl
  have herror : (stepWith s (.uart (.rxDone b₀ b₁)) (.other 0)).errors =
      s.errors ++ [.other 0] := by
    rw [stepWith, step_rxDone_of_ne _ hne,
      keysSend_bootMode (.other 0) .keypadState hmode' (by omega)]
    rfl
  constructor
  · simp [outcome, hquiet]
  · simp [outcome, herror, callsKeysSend, hne]

/-- A dequeue in boot mode removes the entry or keeps it, as `err_code` says. -/
theorem buffered_bootMode {s : State sdk} (hmode : s.mInBootMode = true)
    (hc : s.bufferList.count ≠ 0)
    (hin : (s.bufferList.buffer s.bufferList.rp).InPattern) (n : ℕ) :
    (outcome s (.ble (.txComplete n)) .success).buffered.length <
      (outcome s (.ble (.txComplete n)) .noTxPackets).buffered.length := by
  simp only [outcome, stepWith]
  rw [step_txComplete, step_txComplete,
    bufferDequeue_bootMode (s := deliver s (.ble (.txComplete n))) .success hmode
      (Nat.pos_of_ne_zero hc) rfl hin,
    bufferDequeue_bootMode (s := deliver s (.ble (.txComplete n))) .noTxPackets hmode
      (Nat.pos_of_ne_zero hc) rfl hin, BufferList.length_queue, BufferList.length_queue]
  show u8 (s.bufferList.count - 1) < s.bufferList.count
  have hle : u8 (s.bufferList.count - 1) ≤ s.bufferList.count - 1 := Nat.mod_le _ _
  omega

/-- A transmission in boot mode shows two things. -/
theorem outcome_ne {s : State sdk} (hin : SlotsInPattern s.bufferList) {e : Event}
    (h : sendsInBootMode s e = true) : ∃ u u', outcome s e u ≠ outcome s e u' := by
  obtain ⟨hmode, hsends⟩ := Bool.and_eq_true_iff.mp h
  cases e with
  | uart e =>
    cases e with
    | rxDone b₀ b₁ =>
      have hne : combinedState (b₀, b₁) ≠ s.keypadState := by simpa [callsKeysSend] using hsends
      obtain ⟨hfalse, htrue⟩ := keysSendError_bootMode hmode hne
      refine ⟨.success, .other 0, ?_⟩
      intro heq
      rw [heq, htrue] at hfalse
      cases hfalse
    | error | txDone => cases hsends
  | ble e =>
    cases e with
    | txComplete n =>
      have hc : s.bufferList.count ≠ 0 := by simpa [callsKeysSend] using hsends
      have hlt := buffered_bootMode hmode hc (hin s.bufferList.rp) n
      refine ⟨.success, .noTxPackets, ?_⟩
      intro heq
      rw [heq] at hlt
      exact Nat.lt_irrefl _ hlt
    | _ => cases hsends
  | _ => cases hsends

/-- **What the firmware does is independent of indeterminate memory exactly when it sends nothing
in boot mode**: from every reachable state, any two runs of the same events hand over the same
reports, leave the same entries buffered and agree on the error handler, whatever an
uninitialised `err_code` holds in each, just when no event of the run is a frame that changes the
key state, or a completed transmission with an entry buffered, in boot mode. -/
theorem sends_indifferent_iff (link : sdk.Link) (pm : sdk.Pm) (uart : sdk.Uart)
    (es : List Input) (events : List Event) :
    Indifferent stepWith outcome (run step (boot link pm uart) es) events ↔
      Along (fun s e => stepWith s e .success) (fun s e => sendsInBootMode s e = false)
        (run step (boot link pm uart) es) events := by
  refine indifferent_iff_along (I := fun s => SlotsInPattern s.bufferList)
    (fun s e hI => step_slots hI ⟨e, .success⟩) (fun s e hD u => ?_) (fun s e hI hD => ?_)
    (slots_run link pm uart es) events
  · have heq := stepWith_eq hD u .success
    exact ⟨heq, by simp only [outcome, heq]⟩
  · exact outcome_ne hI (eq_true_of_ne_false hD)

/-- A key change in boot mode: the error handler is called or not. -/
theorem boot_mode_change :
    ¬ Indifferent stepWith outcome (deviceBoot 3)
      [.hids .bootModeEntered, .uart (.rxDone 0 1)] := by
  intro h
  have hrun := h [⟨.hids .bootModeEntered, .success, .success⟩,
    ⟨.uart (.rxDone 0 1), .success, .other 0⟩] rfl
  have herror := congrArg Outcome.keysSendError hrun.2.1
  exact absurd herror (by decide)

end SnesController
