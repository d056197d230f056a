import SnesController.Firmware

/-!
# What the firmware asks of the SDK

The calls a run makes, with their answers, are read off an SDK that keeps a record of them:
`recording sdk` answers as `sdk` does. That the record changes nothing is a matter of replacing one
SDK by another. An `SdkMap` says that a second SDK answers as the first does, its states following
the first's; then so do the states of the firmware, event by event (`step_map`), and a run on the
recording SDK is the run on the other with the record left out (`forget_run`).
-/

namespace SnesController

open EventRun

variable {a b : Sdk}

/-- **A map from one SDK to another**: the second answers as the first does. -/
structure SdkMap (a b : Sdk) where
  link : a.Link → b.Link
  pm : a.Pm → b.Pm
  uart : a.Uart → b.Uart
  linkCall : ∀ l c, b.linkCall (link l) c = ((a.linkCall l c).1, link (a.linkCall l c).2)
  linkDeliver : ∀ l e, b.linkDeliver (link l) e = link (a.linkDeliver l e)
  pmCall : ∀ m c, b.pmCall (pm m) c = ((a.pmCall m c).1, pm (a.pmCall m c).2)
  pmDeliver : ∀ m e, b.pmDeliver (pm m) e = pm (a.pmDeliver m e)
  pmNextPeerIdGet : ∀ m, b.pmNextPeerIdGet (pm m) = a.pmNextPeerIdGet m
  pmPeerDataBondingLoad : ∀ m, b.pmPeerDataBondingLoad (pm m) = a.pmPeerDataBondingLoad m
  pmWhitelistGet : ∀ m, b.pmWhitelistGet (pm m) = a.pmWhitelistGet m
  uartCall : ∀ u c, b.uartCall (uart u) c = ((a.uartCall u c).1, uart (a.uartCall u c).2)
  uartDeliver : ∀ u e, b.uartDeliver (uart u) e = uart (a.uartDeliver u e)
  batteryLevelInPercent : b.batteryLevelInPercent = a.batteryLevelInPercent
  memory : b.memory = a.memory
  bleGapWhitelistAddrMaxCount : b.bleGapWhitelistAddrMaxCount = a.bleGapWhitelistAddrMaxCount
  bleGattStatusAtterrAppBegin : b.bleGattStatusAtterrAppBegin = a.bleGattStatusAtterrAppBegin

/-- The firmware's state, on the second SDK. -/
def State.map (f : SdkMap a b) (s : State a) : State b where
  bufferList := s.bufferList
  mInBootMode := s.mInBootMode
  keypadState := s.keypadState
  rxBuffer := s.rxBuffer
  mConnHandle := s.mConnHandle
  mPeerId := s.mPeerId
  mWhitelistPeers := s.mWhitelistPeers
  mWhitelistPeerCnt := s.mWhitelistPeerCnt
  mIsWlChangedAdvertising := s.mIsWlChangedAdvertising
  mIsWlChangedPeerManager := s.mIsWlChangedPeerManager
  mIsWlChangedConnection := s.mIsWlChangedConnection
  link := f.link s.link
  pm := f.pm s.pm
  uart := f.uart s.uart
  reports := s.reports
  replies := s.replies
  errors := s.errors

/-! ### The functions of the firmware follow the SDK -/

theorem appErrorHandlerIf_congr {sdk : Sdk} {c c' : Prop} [Decidable c] [Decidable c'] (h : c ↔ c')
    (s : State sdk) (err : ErrCode) : appErrorHandlerIf c s err = appErrorHandlerIf c' s err := by
  simp only [appErrorHandlerIf, h]

/-- The whitelist is handed over in two checked calls. -/
theorem whitelistSet_eq {sdk : Sdk} (s : State sdk) :
    whitelistSet s = pmCallChecked (pmCallChecked s [] (.pmWhitelistSet s.whitelisted))
      [.notSupported] (.pmDeviceIdentitiesListSet s.whitelisted) := by
  have hset : pmCallChecked s [] (.pmWhitelistSet s.whitelisted) =
      appErrorCheck { s with pm := (sdk.pmCall s.pm (.pmWhitelistSet s.whitelisted)).2 }
        (sdk.pmCall s.pm (.pmWhitelistSet s.whitelisted)).1 :=
    appErrorHandlerIf_congr (by simp) _ _
  rw [hset]
  exact appErrorHandlerIf_congr (by simp; rfl) _ _

section Map

variable (f : SdkMap a b) (s : State a)

theorem linkCallChecked_map (c : LinkCall) :
    linkCallChecked (s.map f) c = (linkCallChecked s c).map f := by
  unfold linkCallChecked
  rw [show (s.map f).link = f.link s.link from rfl, f.linkCall]
  rfl

theorem pmCallChecked_map (tolerated : List ErrCode) (c : PmCall) :
    pmCallChecked (s.map f) tolerated c = (pmCallChecked s tolerated c).map f := by
  unfold pmCallChecked
  rw [show (s.map f).pm = f.pm s.pm from rfl, f.pmCall]
  rfl

theorem uartCall_map (c : UartCall) : uartCall (s.map f) c = (uartCall s c).map f := by
  unfold uartCall
  rw [show (s.map f).uart = f.uart s.uart from rfl, f.uartCall]
  rfl

theorem reportData_map (p : PatternPtr) (dataLen : ℕ) :
    reportData (s.map f) p dataLen = reportData s p dataLen := by
  unfold reportData State.load
  rw [f.memory]
  rfl

theorem bleHidsInpRepSend_map (pHids : HidsPtr) (repIndex len : ℕ) (data : List UInt8) :
    bleHidsInpRepSend (s.map f) pHids repIndex len data =
      ((bleHidsInpRepSend s pHids repIndex len data).1,
        (bleHidsInpRepSend s pHids repIndex len data).2.map f) := by
  unfold bleHidsInpRepSend
  rw [show (s.map f).link = f.link s.link from rfl, f.linkCall]
  rfl

theorem sendPass_map (errCode : ErrCode) (pHids : HidsPtr) (p : PatternPtr) (dataLen : ℕ) :
    sendPass (s.map f) errCode pHids p dataLen =
      ((sendPass s errCode pHids p dataLen).1, (sendPass s errCode pHids p dataLen).2.map f) := by
  unfold sendPass
  rw [reportData_map, bleHidsInpRepSend_map, show (s.map f).mInBootMode = s.mInBootMode from rfl]
  split_ifs <;> rfl

/-- What a transmission returns, on the second SDK. -/
def Transmission.map (t : Transmission a) : Transmission b :=
  ⟨t.errCode, t.actualLen, t.state.map f⟩

theorem sendLoop_map (n : ℕ) (errCode : ErrCode) (pHids : HidsPtr) (p : PatternPtr)
    (dataLen offset : ℕ) :
    sendLoop n (s.map f) errCode pHids p dataLen offset =
      (sendLoop n s errCode pHids p dataLen offset).map f := by
  induction n generalizing s errCode offset with
  | zero => rfl
  | succ n ih =>
    simp only [sendLoop]
    rw [sendPass_map]
    split_ifs
    · rfl
    · exact ih _ _ _
    · rfl

theorem sendKeyScanPressRelease_map (uninit : ErrCode) (pHids : HidsPtr) (p : PatternPtr)
    (patternLen patternOffset : ℕ) :
    sendKeyScanPressRelease (s.map f) uninit pHids p patternLen patternOffset =
      (sendKeyScanPressRelease s uninit pHids p patternLen patternOffset).map f :=
  sendLoop_map f s _ uninit pHids p patternLen patternOffset

theorem bufferDequeue_map (uninit : ErrCode) (txFlag : Bool) :
    bufferDequeue (s.map f) uninit txFlag =
      ((bufferDequeue s uninit txFlag).1, (bufferDequeue s uninit txFlag).2.map f) := by
  unfold bufferDequeue
  rw [show (s.map f).bufferList = s.bufferList from rfl]
  dsimp only
  rw [sendKeyScanPressRelease_map]
  generalize sendKeyScanPressRelease s uninit _ _ _ _ = t
  by_cases hempty : bufferListEmpty s.bufferList = true
  · rw [if_pos hempty, if_pos hempty]
  rw [if_neg hempty, if_neg hempty]
  cases txFlag with
  | false => rfl
  | true =>
    rw [if_pos rfl, if_pos rfl]
    by_cases hkept : t.errCode = .noTxPackets ∧
        t.actualLen ≤ (s.bufferList.buffer s.bufferList.rp).dataLen
    · rw [if_pos hkept, if_pos (show (t.map f).errCode = _ ∧ (t.map f).actualLen ≤ _ from hkept)]
      rfl
    · rw [if_neg hkept,
        if_neg (show ¬ ((t.map f).errCode = _ ∧ (t.map f).actualLen ≤ _) from hkept)]
      rfl

theorem keysSend_map (uninit : ErrCode) (len : ℕ) (p : PatternPtr) :
    keysSend (s.map f) uninit len p = (keysSend s uninit len p).map f := by
  have hsent := sendKeyScanPressRelease_map f s uninit .mHids p len 0
  simp only [keysSend]
  generalize sendKeyScanPressRelease (s.map f) uninit .mHids p len 0 = t' at hsent
  generalize sendKeyScanPressRelease s uninit .mHids p len 0 = t at hsent ⊢
  subst hsent
  by_cases hheld : t.errCode = .noTxPackets ∧ t.actualLen ≤ len
  · rw [if_pos hheld, if_pos (show (t.map f).errCode = _ ∧ (t.map f).actualLen ≤ _ from hheld)]
    rfl
  · rw [if_neg hheld, if_neg (show ¬ ((t.map f).errCode = _ ∧ (t.map f).actualLen ≤ _) from hheld)]
    rfl

theorem uartEventHandler_map (uninit : ErrCode) (e : UartEvt) :
    uartEventHandler (s.map f) uninit e = (uartEventHandler s uninit e).map f := by
  cases e with
  | rxDone b₀ b₁ =>
    simp only [uartEventHandler, keypadChanged]
    rw [← uartCall_map, show (s.map f).rxBuffer = s.rxBuffer from rfl,
      show (s.map f).keypadState = s.keypadState from rfl]
    split_ifs
    · exact congrArg (uartCall · _)
        (keysSend_map f { s with keypadState := combinedState s.rxBuffer } uninit 2 .keypadState)
    · rfl
  | error | txDone => rfl

theorem whitelistSet_map : whitelistSet (s.map f) = (whitelistSet s).map f := by
  rw [whitelistSet_eq, whitelistSet_eq, pmCallChecked_map, pmCallChecked_map]
  rfl

theorem advertisingStart_map : advertisingStart (s.map f) = (advertisingStart s).map f := by
  have hlist : rebuilt b (f.pm s.pm) = rebuilt a s.pm := by
    unfold rebuilt peerList
    rw [f.pmNextPeerIdGet, f.bleGapWhitelistAddrMaxCount]
  have hstate : rebuiltState (s.map f) = (rebuiltState s).map f := by
    unfold rebuiltState
    rw [show (s.map f).pm = f.pm s.pm from rfl, hlist, f.bleGapWhitelistAddrMaxCount]
    rfl
  rw [advertisingStart_eq, advertisingStart_eq, hstate, whitelistSet_map, ← linkCallChecked_map]
  rfl

theorem onAdvEvt_map (e : AdvEvt) : onAdvEvt (s.map f) e = (onAdvEvt s e).map f := by
  cases e with
  | directed | fast | slow | fastWhitelist | slowWhitelist => rfl
  | idle => exact linkCallChecked_map f s _
  | whitelistRequest =>
    simp only [onAdvEvt]
    rw [show (s.map f).pm = f.pm s.pm from rfl, f.pmWhitelistGet, f.bleGapWhitelistAddrMaxCount,
      ← linkCallChecked_map]
    rfl
  | peerAddrRequest =>
    simp only [onAdvEvt]
    rw [show (s.map f).pm = f.pm s.pm from rfl, f.pmPeerDataBondingLoad,
      show (s.map f).mPeerId = s.mPeerId from rfl]
    split_ifs
    · rw [← linkCallChecked_map]
      rfl
    · rfl
    · rfl

theorem whitelistAppend_map : whitelistAppend (s.map f) = (whitelistAppend s).map f := by
  unfold whitelistAppend
  rw [f.bleGapWhitelistAddrMaxCount]
  by_cases hroom : s.mWhitelistPeerCnt < a.bleGapWhitelistAddrMaxCount
  · rw [if_pos hroom, if_pos (show (s.map f).mWhitelistPeerCnt < _ from hroom)]
    rfl
  · rw [if_neg hroom, if_neg (show ¬ (s.map f).mWhitelistPeerCnt < _ from hroom)]

theorem pmEvtHandler_map (e : PmEvt) : pmEvtHandler (s.map f) e = (pmEvtHandler s e).map f := by
  cases e with
  | bondedPeerConnected p => exact pmCallChecked_map f { s with mPeerId := p } _ _
  | connSecSucceeded p procedure =>
    have hranked : peerConnected (s.map f) p = (peerConnected s p).map f :=
      pmCallChecked_map f { s with mPeerId := p } _ _
    simp only [pmEvtHandler]
    rw [hranked, whitelistAppend_map]
    split_ifs <;> rfl
  | connSecFailed c missing =>
    cases missing with
    | true => exact pmCallChecked_map f s _ _
    | false => rfl
  | connSecConfigReq c =>
    simp only [pmEvtHandler]
    rw [show (s.map f).pm = f.pm s.pm from rfl, f.pmCall]
    rfl
  | storageFull => exact pmCallChecked_map f s _ _
  | localDbCacheApplyFailed =>
    simp only [pmEvtHandler]
    rw [show (s.map f).pm = f.pm s.pm from rfl, f.pmCall]
    rfl
  | peersDeleteSucceeded => exact advertisingStart_map f s
  | _ => rfl

theorem whitelistUpdate_map : whitelistUpdate (s.map f) = (whitelistUpdate s).map f := by
  unfold whitelistUpdate
  rw [whitelistSet_map, show (s.map f).mIsWlChangedConnection = s.mIsWlChangedConnection from rfl]
  split_ifs <;> rfl

theorem onBleEvt_map (uninit : ErrCode) (e : BleEvt) :
    onBleEvt (s.map f) uninit e = (onBleEvt s uninit e).map f := by
  cases e with
  | connected c => rfl
  | txComplete n => exact congrArg Prod.snd (bufferDequeue_map f s uninit true)
  | disconnected =>
    simp only [onBleEvt]
    rw [bufferDequeue_map, ← whitelistUpdate_map]
    rfl
  | gattcTimeout c | gattsTimeout c | userMemRequest => exact linkCallChecked_map f s _
  | rwAuthorizeRequest c type op =>
    simp only [onBleEvt, appFeatureNotSupported]
    rw [f.bleGattStatusAtterrAppBegin]
    split_ifs
    · exact linkCallChecked_map f s _
    · exact linkCallChecked_map f s _
    · rfl
  | other n => rfl

theorem adcEventHandler_map (e : AdcEvt) :
    adcEventHandler (s.map f) e = (adcEventHandler s e).map f := by
  unfold adcEventHandler
  rw [show (s.map f).link = f.link s.link from rfl, f.linkCall]
  cases e with
  | done samples =>
    dsimp only
    rw [f.linkCall, f.batteryLevelInPercent]
    rfl
  | other => rfl

theorem deliver_map (e : Event) : deliver (s.map f) e = (deliver s e).map f := by
  unfold deliver
  rw [show (s.map f).link = f.link s.link from rfl, show (s.map f).pm = f.pm s.pm from rfl,
    show (s.map f).uart = f.uart s.uart from rfl, f.linkDeliver, f.pmDeliver, f.uartDeliver]
  rfl

/-- **One event**: the firmware on the second SDK does as it does on the first. -/
theorem step_map (i : Input) : step (s.map f) i = (step s i).map f := by
  obtain ⟨e, u⟩ := i
  unfold step
  rw [deliver_map]
  cases e with
  | uart e => exact uartEventHandler_map f _ u e
  | ble e => exact onBleEvt_map f _ u e
  | hids e => cases e <;> rfl
  | pm e => exact pmEvtHandler_map f _ e
  | adv e => exact onAdvEvt_map f _ e
  | adc e => exact adcEventHandler_map f _ e

end Map

theorem keypadReceiverInit_map (f : SdkMap a b) (s : State a) :
    keypadReceiverInit (bufferInit (s.map f)) = (keypadReceiverInit (bufferInit s)).map f := by
  unfold keypadReceiverInit
  dsimp only
  rw [← uartCall_map, ← uartCall_map, ← uartCall_map]
  rfl

theorem reset_map (f : SdkMap a b) (link : a.Link) (pm : a.Pm) (uart : a.Uart) :
    State.reset (f.link link) (f.pm pm) (f.uart uart) = (State.reset link pm uart).map f := by
  unfold State.reset
  rw [f.bleGapWhitelistAddrMaxCount]
  rfl

theorem boot_map (f : SdkMap a b) (link : a.Link) (pm : a.Pm) (uart : a.Uart) :
    boot (f.link link) (f.pm pm) (f.uart uart) = (boot link pm uart).map f := by
  unfold boot mainInit
  rw [reset_map, keypadReceiverInit_map, advertisingStart_map]

/-! ### The recording SDK -/

/-- **`sdk`, with a record of the calls made of each part and their answers.** -/
def recording (sdk : Sdk) : Sdk where
  Link := sdk.Link × List (LinkCall × ErrCode)
  Pm := sdk.Pm × List (PmCall × ErrCode)
  Uart := sdk.Uart × List (UartCall × ErrCode)
  linkCall l c :=
    ((sdk.linkCall l.1 c).1, (sdk.linkCall l.1 c).2, l.2 ++ [(c, (sdk.linkCall l.1 c).1)])
  linkDeliver l e := (sdk.linkDeliver l.1 e, l.2)
  pmCall m c := ((sdk.pmCall m.1 c).1, (sdk.pmCall m.1 c).2, m.2 ++ [(c, (sdk.pmCall m.1 c).1)])
  pmDeliver m e := (sdk.pmDeliver m.1 e, m.2)
  pmNextPeerIdGet m := sdk.pmNextPeerIdGet m.1
  pmPeerDataBondingLoad m := sdk.pmPeerDataBondingLoad m.1
  pmWhitelistGet m := sdk.pmWhitelistGet m.1
  uartCall u c :=
    ((sdk.uartCall u.1 c).1, (sdk.uartCall u.1 c).2, u.2 ++ [(c, (sdk.uartCall u.1 c).1)])
  uartDeliver u e := (sdk.uartDeliver u.1 e, u.2)
  batteryLevelInPercent := sdk.batteryLevelInPercent
  memory := sdk.memory
  bleGapWhitelistAddrMaxCount := sdk.bleGapWhitelistAddrMaxCount
  bleGattStatusAtterrAppBegin := sdk.bleGattStatusAtterrAppBegin

variable {sdk : Sdk}

/-- The record left out. -/
def forget (sdk : Sdk) : SdkMap (recording sdk) sdk where
  link := Prod.fst
  pm := Prod.fst
  uart := Prod.fst
  linkCall _ _ := rfl
  linkDeliver _ _ := rfl
  pmCall _ _ := rfl
  pmDeliver _ _ := rfl
  pmNextPeerIdGet _ := rfl
  pmPeerDataBondingLoad _ := rfl
  pmWhitelistGet _ := rfl
  uartCall _ _ := rfl
  uartDeliver _ _ := rfl
  batteryLevelInPercent := rfl
  memory := rfl
  bleGapWhitelistAddrMaxCount := rfl
  bleGattStatusAtterrAppBegin := rfl

/-- The firmware's state with a record, nothing in it yet. -/
def recordedBoot (link : sdk.Link) (pm : sdk.Pm) (uart : sdk.Uart) : State (recording sdk) :=
  @boot (recording sdk) (link, []) (pm, []) (uart, [])

/-- **The record changes nothing**: the run on the recording SDK is the run on `sdk`. -/
theorem forget_run (link : sdk.Link) (pm : sdk.Pm) (uart : sdk.Uart) (es : List Input) :
    (run step (recordedBoot link pm uart) es).map (forget sdk) =
      run step (boot link pm uart) es := by
  rw [run_map (fun s i => (step_map (forget sdk) s i).symm)]
  exact congrArg (run step · es)
    (boot_map (forget sdk) (link, ([] : List (LinkCall × ErrCode))) (pm, []) (uart, [])).symm

end SnesController
