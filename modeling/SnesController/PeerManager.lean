import SnesController.Advertising

/-!
# Peer Manager events

`pm_evt_handler` of `my_ble_peer_manager.c`. A successful bonding procedure appends the
peer to the whitelist while there is room; it sets this file's `m_is_wl_changed`.
-/

namespace SnesController

variable {sdk : Sdk}

/-- A call of the Peer Manager, its answer checked unless it is `tolerated`. -/
def pmCallChecked (s : State sdk) (tolerated : List ErrCode) (c : PmCall) : State sdk :=
  let r := sdk.pmCall s.pm c
  appErrorHandlerIf (r.1 ∉ tolerated ∧ r.1 ≠ .success) { s with pm := r.2 } r.1

/-- The common start of `PM_EVT_BONDED_PEER_CONNECTED` and `PM_EVT_CONN_SEC_SUCCEEDED`. -/
def peerConnected (s : State sdk) (peerId : PeerId) : State sdk :=
  pmCallChecked { s with mPeerId := peerId } [.busy] (.pmPeerRankHighest peerId)

/-- Add the current peer to the whitelist if possible. -/
def whitelistAppend (s : State sdk) : State sdk :=
  if s.mWhitelistPeerCnt < sdk.bleGapWhitelistAddrMaxCount then
    { s with
      mWhitelistPeers := s.mWhitelistPeers.set s.mWhitelistPeerCnt s.mPeerId
      mWhitelistPeerCnt := s.mWhitelistPeerCnt + 1
      mIsWlChangedPeerManager := true }
  else s

/-- `pm_evt_handler`. -/
def pmEvtHandler (s : State sdk) : PmEvt → State sdk
  | .bondedPeerConnected peerId => peerConnected s peerId
  | .connSecStart => s
  | .connSecSucceeded peerId procedure =>
    let s := peerConnected s peerId
    if procedure = .bonding then whitelistAppend s else s
  | .connSecFailed connHandle pinOrKeyMissing =>
    if pinOrKeyMissing then pmCallChecked s [.invalidState] (.pmConnSecure connHandle true) else s
  | .connSecConfigReq connHandle =>
    { s with pm := (sdk.pmCall s.pm (.pmConnSecConfigReply connHandle false)).2 }
  | .storageFull => pmCallChecked s [.fdsBusy, .fdsNoSpaceInQueues] .fdsGc
  | .errorUnexpected error => appErrorCheck s error
  | .peerDataUpdateSucceeded => s
  | .peerDataUpdateFailed => appErrorHandler s .success
  | .peerDeleteSucceeded _ => s
  | .peerDeleteFailed error => appErrorCheck s error
  | .peersDeleteSucceeded => advertisingStart s
  | .peersDeleteFailed error => appErrorCheck s error
  | .localDbCacheApplied => s
  | .localDbCacheApplyFailed => { s with pm := (sdk.pmCall s.pm .pmLocalDatabaseHasChanged).2 }
  | .serviceChangedIndSent => s
  | .serviceChangedIndConfirmed => s

/-- What `pm_evt_handler` may change. -/
theorem pmEvtHandler_frame (s : State sdk) (e : PmEvt) :
    ∃ l pm id ps cnt wa wp es, pmEvtHandler s e =
      { s with link := l, pm := pm, mPeerId := id, mWhitelistPeers := ps, mWhitelistPeerCnt := cnt,
               mIsWlChangedAdvertising := wa, mIsWlChangedPeerManager := wp, errors := es } := by
  cases e with
  | connSecSucceeded p procedure =>
    simp only [pmEvtHandler, whitelistAppend]
    split_ifs <;> exact ⟨_, _, _, _, _, _, _, _, rfl⟩
  | connSecFailed c missing => cases missing <;> exact ⟨_, _, _, _, _, _, _, _, rfl⟩
  | _ => exact ⟨_, _, _, _, _, _, _, _, rfl⟩

end SnesController
