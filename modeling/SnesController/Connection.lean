import SnesController.Buffer
import SnesController.Advertising

/-!
# BLE stack events

`on_ble_evt` of `my_ble_connection.c`. A completed transmission dequeues one buffered key
change with transmission, a disconnect one without; a disconnect also hands the whitelist
to the Peer Manager if this file's `m_is_wl_changed` is set.
-/

namespace SnesController

variable {sdk : Sdk}

/-- The disconnect's update of the whitelist in the Peer Manager. -/
def whitelistUpdate (s : State sdk) : State sdk :=
  if s.mIsWlChangedConnection then
    { whitelistSet s with mIsWlChangedConnection := false }
  else s

/-- `APP_FEATURE_NOT_SUPPORTED`. -/
def appFeatureNotSupported (sdk : Sdk) : ℕ := sdk.bleGattStatusAtterrAppBegin + 2

/-- `on_ble_evt`. -/
def onBleEvt (s : State sdk) (uninit : ErrCode) : BleEvt → State sdk
  | .connected connHandle => { s with mConnHandle := connHandle }
  | .txComplete _ => (bufferDequeue s uninit true).2
  | .disconnected =>
    whitelistUpdate { (bufferDequeue s uninit false).2 with mConnHandle := bleConnHandleInvalid }
  | .gattcTimeout connHandle => linkCallChecked s (.sdBleGapDisconnect connHandle)
  | .gattsTimeout connHandle => linkCallChecked s (.sdBleGapDisconnect connHandle)
  | .userMemRequest => linkCallChecked s (.sdBleUserMemReply s.mConnHandle)
  | .rwAuthorizeRequest connHandle type op =>
    if type ≠ .invalid ∧
        (op = .prepWriteReq ∨ op = .execWriteReqNow ∨ op = .execWriteReqCancel) then
      linkCallChecked s (.sdBleGattsRwAuthorizeReply connHandle
        (if type = .write then .write else .read) (appFeatureNotSupported sdk))
    else s
  | .other _ => s

theorem whitelistUpdate_of_not_changed {s : State sdk} (h : s.mIsWlChangedConnection = false) :
    whitelistUpdate s = s :=
  if_neg (by simp [h])

/-- What the disconnect's update of the whitelist may change. -/
theorem whitelistUpdate_frame (s : State sdk) :
    ∃ pm wc es, whitelistUpdate s =
      { s with pm := pm, mIsWlChangedConnection := wc, errors := es } := by
  unfold whitelistUpdate
  split_ifs <;> exact ⟨_, _, _, rfl⟩

/-- What `on_ble_evt` may change, but for a completed transmission and a disconnect. -/
theorem onBleEvt_frame_of_ne (s : State sdk) (uninit : ErrCode) {e : BleEvt}
    (ht : ∀ n, e ≠ .txComplete n) (hd : e ≠ .disconnected) :
    ∃ l h es, onBleEvt s uninit e = { s with link := l, mConnHandle := h, errors := es } := by
  cases e with
  | txComplete n => exact absurd rfl (ht n)
  | disconnected => exact absurd rfl hd
  | rwAuthorizeRequest c t o =>
    simp only [onBleEvt]
    split_ifs <;> exact ⟨_, _, _, rfl⟩
  | _ => exact ⟨_, _, _, rfl⟩

/-- What `on_ble_evt` may change. It leaves the Peer Manager to itself unless this file's
`m_is_wl_changed` is set. -/
theorem onBleEvt_frame (s : State sdk) (uninit : ErrCode) (e : BleEvt) :
    ∃ l rs b h pm wc es, onBleEvt s uninit e =
        { s.handed l rs with
          bufferList := b, mConnHandle := h, pm := pm, mIsWlChangedConnection := wc,
          errors := es } ∧
      (s.mIsWlChangedConnection = false → pm = s.pm ∧ wc = false) := by
  by_cases ht : ∃ n, e = .txComplete n
  · obtain ⟨n, rfl⟩ := ht
    obtain ⟨l, rs, b, heq, -⟩ := bufferDequeue_handed s uninit true
    exact ⟨l, rs, b, _, _, _, _, heq, fun hflag => ⟨rfl, hflag⟩⟩
  by_cases hd : e = .disconnected
  · subst hd
    obtain ⟨l, rs, b, hdeq, -⟩ := bufferDequeue_handed s uninit false
    simp only [onBleEvt]
    rw [hdeq]
    cases hflag : s.mIsWlChangedConnection with
    | true =>
      obtain ⟨pm, wc, es, heq⟩ := whitelistUpdate_frame
        { s.handed l rs with bufferList := b, mConnHandle := bleConnHandleInvalid }
      exact ⟨l, rs, b, _, pm, wc, es, heq, nofun⟩
    | false =>
      rw [whitelistUpdate_of_not_changed]
      · exact ⟨l, rs, b, _, s.pm, false, _, by rw [← hflag]; rfl, fun _ => ⟨rfl, rfl⟩⟩
      · exact hflag
  · obtain ⟨l, h, es, heq⟩ := onBleEvt_frame_of_ne s uninit (fun n hn => ht ⟨n, hn⟩) hd
    exact ⟨l, [], s.bufferList, h, s.pm, s.mIsWlChangedConnection, es,
      by rw [heq]; simp [State.handed], fun hflag => ⟨rfl, hflag⟩⟩

end SnesController
