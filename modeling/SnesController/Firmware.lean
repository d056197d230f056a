import SnesController.Keypad
import SnesController.PeerManager
import SnesController.Connection
import SnesController.Battery

/-!
# The firmware

`main`'s start-up and the handling of one event. An input is an event and what the
uninitialised `err_code` of `send_key_scan_press_release` would hold while the event is
handled; an event causes at most one call of that function.
-/

namespace SnesController

open EventRun

variable {sdk : Sdk}

/-- An event, and the value of an uninitialised `err_code` while it is handled. -/
structure Input where
  evt : Event
  uninit : ErrCode
  deriving DecidableEq, Repr

/-- The start-up of `main`, as far as it touches the state. -/
def mainInit (s : State sdk) : State sdk := advertisingStart (keypadReceiverInit (bufferInit s))

/-- The firmware at the start of its main loop, after a reset. -/
def boot (link : sdk.Link) (pm : sdk.Pm) (uart : sdk.Uart) : State sdk :=
  mainInit (.reset link pm uart)

/-- What the SDK does before the handler of an event is called: its own part, and for a
completed receive the bytes in `rx_buffer`. -/
def deliver (s : State sdk) (e : Event) : State sdk :=
  { s with
    link := sdk.linkDeliver s.link e
    pm := sdk.pmDeliver s.pm e
    uart := sdk.uartDeliver s.uart e
    rxBuffer := match e with
      | .uart (.rxDone b₀ b₁) => (b₀, b₁)
      | _ => s.rxBuffer }

/-- The handler of an event. -/
def handle (s : State sdk) (uninit : ErrCode) : Event → State sdk
  | .uart e => uartEventHandler s uninit e
  | .ble e => onBleEvt s uninit e
  | .hids e => onHidsEvt s e
  | .pm e => pmEvtHandler s e
  | .adv e => onAdvEvt s e
  | .adc e => adcEventHandler s e

/-- **One event.** -/
def step (s : State sdk) (i : Input) : State sdk := handle (deliver s i.evt) i.uninit i.evt

theorem step_ble (s : State sdk) (e : BleEvt) (u : ErrCode) :
    step s ⟨.ble e, u⟩ = onBleEvt (deliver s (.ble e)) u e := rfl

theorem step_pm (s : State sdk) (e : PmEvt) (u : ErrCode) :
    step s ⟨.pm e, u⟩ = pmEvtHandler (deliver s (.pm e)) e := rfl

theorem step_adv (s : State sdk) (e : AdvEvt) (u : ErrCode) :
    step s ⟨.adv e, u⟩ = onAdvEvt (deliver s (.adv e)) e := rfl

/-- **What the handler of an event may change**, by where the event is from. A disconnect calls the
Peer Manager only when its file's `m_is_wl_changed` is set. -/
inductive Handled (s : State sdk) : Event → State sdk → Prop where
  | uart (e : UartEvt) (l : sdk.Link) (rs : List Report) (b : BufferList) (es : List ErrCode)
      (k : UInt16) (d : sdk.Uart) :
      Handled s (.uart e)
        { s.handed l rs with bufferList := b, errors := es, keypadState := k, uart := d }
  | ble (e : BleEvt) (l : sdk.Link) (rs : List Report) (b : BufferList) (h : ℕ) (pm : sdk.Pm)
      (wc : Bool) (es : List ErrCode) :
      (s.mIsWlChangedConnection = false → pm = s.pm ∧ wc = false) →
      Handled s (.ble e)
        { s.handed l rs with
          bufferList := b, mConnHandle := h, pm := pm, mIsWlChangedConnection := wc, errors := es }
  | hids (e : HidsEvt) (mode : Bool) : Handled s (.hids e) { s with mInBootMode := mode }
  | pm (e : PmEvt) (l : sdk.Link) (pm : sdk.Pm) (id : PeerId) (ps : List PeerId) (cnt : ℕ)
      (wa wp : Bool) (es : List ErrCode) :
      Handled s (.pm e)
        { s with
          link := l, pm := pm, mPeerId := id, mWhitelistPeers := ps, mWhitelistPeerCnt := cnt
          mIsWlChangedAdvertising := wa, mIsWlChangedPeerManager := wp, errors := es }
  | adv (e : AdvEvt) (l : sdk.Link) (rs : List ℕ) (es : List ErrCode) :
      Handled s (.adv e) { s with link := l, replies := rs, errors := es }
  | adc (e : AdcEvt) (l : sdk.Link) (es : List ErrCode) :
      Handled s (.adc e) { s with link := l, errors := es }

section Untouched

variable {s s' : State sdk} {e : Event}

/-- Only the handlers of the UART's events call its driver. -/
theorem Handled.uart_eq (h : Handled s e s') (hne : ∀ x, e ≠ .uart x) : s'.uart = s.uart := by
  cases h with
  | uart x => exact absurd rfl (hne x)
  | _ => rfl

/-- Only the handlers of the HID service's events change the protocol mode. -/
theorem Handled.mode_eq (h : Handled s e s') (hne : ∀ x, e ≠ .hids x) :
    s'.mInBootMode = s.mInBootMode := by
  cases h with
  | hids x => exact absurd rfl (hne x)
  | _ => rfl

/-- Only the handlers of the Peer Manager's events set `m_peer_id`. -/
theorem Handled.mPeerId_eq (h : Handled s e s') (hne : ∀ x, e ≠ .pm x) :
    s'.mPeerId = s.mPeerId := by
  cases h with
  | pm x => exact absurd rfl (hne x)
  | _ => rfl

/-- Only the handlers of the advertising module's events reply to it. -/
theorem Handled.replies_eq (h : Handled s e s') (hne : ∀ x, e ≠ .adv x) :
    s'.replies = s.replies := by
  cases h with
  | adv x => exact absurd rfl (hne x)
  | _ => rfl

end Untouched

theorem handle_handled (s : State sdk) (uninit : ErrCode) (e : Event) :
    Handled s e (handle s uninit e) := by
  cases e with
  | uart e =>
    obtain ⟨l, rs, b, es, k, d, heq⟩ := uartEventHandler_frame s uninit e
    simp only [handle, heq]
    exact .uart e l rs b es k d
  | ble e =>
    obtain ⟨l, rs, b, h, pm, wc, es, heq, hkept⟩ := onBleEvt_frame s uninit e
    simp only [handle, heq]
    exact .ble e l rs b h pm wc es hkept
  | hids e => cases e <;> exact .hids _ _
  | pm e =>
    obtain ⟨l, pm, id, ps, cnt, wa, wp, es, heq⟩ := pmEvtHandler_frame s e
    simp only [handle, heq]
    exact .pm e l pm id ps cnt wa wp es
  | adv e =>
    obtain ⟨l, rs, es, heq⟩ := onAdvEvt_frame s e
    simp only [handle, heq]
    exact .adv e l rs es
  | adc e =>
    obtain ⟨l, es, heq⟩ := adcEventHandler_frame s e
    simp only [handle, heq]
    exact .adc e l es

/-- What an event may change. -/
theorem step_handled (s : State sdk) (i : Input) : Handled (deliver s i.evt) i.evt (step s i) :=
  handle_handled _ i.uninit i.evt

/-- The firmware on the SDK with `txBuffers` TX buffers. -/
def deviceBoot (txBuffers : ℕ) : State (device txBuffers) :=
  boot (deviceLink txBuffers) (devicePm txBuffers) (deviceUart txBuffers)

/-- A frame is received. -/
def frame (b₀ b₁ : UInt8) : Input := ⟨.uart (.rxDone b₀ b₁), .success⟩

/-- Transmissions are completed. -/
def txComplete (count : ℕ) : Input := ⟨.ble (.txComplete count), .success⟩

/-- The connection ends. -/
def disconnected : Input := ⟨.ble .disconnected, .success⟩

/-- A bonding procedure succeeds. -/
def peerBonded (peerId : PeerId) : Input := ⟨.pm (.connSecSucceeded peerId .bonding), .success⟩

/-- The bonds with all peers are deleted. -/
def peersDeleted : Input := ⟨.pm .peersDeleteSucceeded, .success⟩

/-- A link cannot be encrypted because the peer has lost its key. -/
def keyMissing (connHandle : ℕ) : Input := ⟨.pm (.connSecFailed connHandle true), .success⟩

end SnesController
