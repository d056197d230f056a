import SnesController.Recording
import SnesController.Directed

/-!
# What each event asks of the SDK, and which answers are errors

`step_asks` says, for every event in every state, which calls the firmware makes of the link and of
the Peer Manager, and which codes it gives to `APP_ERROR_HANDLER`: the bad codes of the event
itself, then the answers the calls were not allowed to have. The reports of key states come on top
of the other calls of the link (`linkRequests`), in any number.

On the SDK, `APP_ERROR_HANDLER` resets the chip. `errors_run_iff` says exactly in which runs neither
`advertising_start`, at the start-up, nor the handler of an event calls it. The other calls that
`main` checks before its loop, those of the timers and of `adc_sample` are not part of it. What a
call may answer depends on who made it: `keys_send` looks at the answers to its reports,
`buffer_dequeue` does not.
-/

namespace SnesController

open EventRun

variable {sdk : Sdk}

/-- The calls recorded of the link. -/
def State.linkCalls (s : State (recording sdk)) : List (LinkCall × ErrCode) :=
  (show sdk.Link × List (LinkCall × ErrCode) from s.link).2

/-- The calls recorded of the Peer Manager. -/
def State.pmCalls (s : State (recording sdk)) : List (PmCall × ErrCode) :=
  (show sdk.Pm × List (PmCall × ErrCode) from s.pm).2

/-- From `s` to `s'` the calls `xs` of the link and `ys` of the Peer Manager are made, and the
codes `es` given to `APP_ERROR_HANDLER`. -/
structure Adds (s s' : State (recording sdk)) (xs : List (LinkCall × ErrCode))
    (ys : List (PmCall × ErrCode)) (es : List ErrCode) : Prop where
  link : s'.linkCalls = s.linkCalls ++ xs
  pm : s'.pmCalls = s.pmCalls ++ ys
  errors : s'.errors = s.errors ++ es

theorem Adds.refl (s : State (recording sdk)) : Adds s s [] [] [] :=
  ⟨(List.append_nil _).symm, (List.append_nil _).symm, (List.append_nil _).symm⟩

theorem Adds.trans {s s' s'' : State (recording sdk)} {xs xs' : List (LinkCall × ErrCode)}
    {ys ys' : List (PmCall × ErrCode)} {es es' : List ErrCode} (h : Adds s s' xs ys es)
    (h' : Adds s' s'' xs' ys' es') : Adds s s'' (xs ++ xs') (ys ++ ys') (es ++ es') where
  link := by rw [h'.link, h.link, List.append_assoc]
  pm := by rw [h'.pm, h.pm, List.append_assoc]
  errors := by rw [h'.errors, h.errors, List.append_assoc]

/-- Whatever else changes, nothing is added. -/
theorem Adds.nothing {s s' : State (recording sdk)} (hl : s'.link = s.link) (hp : s'.pm = s.pm)
    (he : s'.errors = s.errors) : Adds s s' [] [] [] where
  link := by rw [State.linkCalls, hl, List.append_nil]; rfl
  pm := by rw [State.pmCalls, hp, List.append_nil]; rfl
  errors := by rw [he, List.append_nil]

theorem Adds.then_nothing {s s' s'' : State (recording sdk)} {xs : List (LinkCall × ErrCode)}
    {ys : List (PmCall × ErrCode)} {es : List ErrCode} (h : Adds s s' xs ys es)
    (h' : Adds s' s'' [] [] []) : Adds s s'' xs ys es := by
  have := h.trans h'
  rwa [List.append_nil, List.append_nil, List.append_nil] at this

/-! ### Answers that are errors -/

/-- The code given to `APP_ERROR_HANDLER`, if a result is neither `NRF_SUCCESS` nor tolerated. -/
def complaint (tolerated : List ErrCode) (a : ErrCode) : List ErrCode :=
  if a ∉ tolerated ∧ a ≠ .success then [a] else []

@[simp] theorem complaint_success (tolerated : List ErrCode) : complaint tolerated .success = [] :=
  if_neg fun h => h.2 rfl

theorem complaint_eq_nil_iff {tolerated : List ErrCode} {a : ErrCode} :
    complaint tolerated a = [] ↔ a = .success ∨ a ∈ tolerated := by
  unfold complaint
  split_ifs with h
  · exact iff_of_false not_false (not_or.mpr ⟨h.2, h.1⟩)
  · refine iff_of_true rfl ?_
    by_contra hnot
    exact h ⟨fun hmem => hnot (.inr hmem), fun hsuccess => hnot (.inl hsuccess)⟩

/-- The results that `keys_send` and `adc_event_handler` let pass. -/
def passing : List ErrCode := [.invalidState, .noTxPackets, .gattsSysAttrMissing]

theorem not_mem_passing_iff (a : ErrCode) :
    (a ≠ .success ∧ a ≠ .invalidState ∧ a ≠ .noTxPackets ∧ a ≠ .gattsSysAttrMissing) ↔
      a ∉ passing ∧ a ≠ .success := by
  simp only [passing, List.mem_cons, List.not_mem_nil, or_false, not_or]
  exact and_comm

/-- A report of a key state. -/
def LinkCall.IsReport : LinkCall → Prop
  | .bleHidsInpRepSend _ _ _ _ => True
  | _ => False

instance : DecidablePred LinkCall.IsReport
  | .bleHidsInpRepSend _ _ _ _ => isTrue trivial
  | .bleBasBatteryLevelUpdate _ | .sdBleGapDisconnect _ | .sdBleUserMemReply _
  | .sdBleGattsRwAuthorizeReply _ _ _ | .bleAdvertisingStart | .bleAdvertisingWhitelistReply _ _
  | .bleAdvertisingPeerAddrReply _ | .sdPowerSystemOff | .sdClockHfclkRelease => isFalse id

/-- What an answer of the link makes of the call: while an event of the UART is handled the reports
are `keys_send`'s, and while one of the stack is they are `buffer_dequeue`'s. -/
def linkComplaint (e : Event) (x : LinkCall × ErrCode) : List ErrCode :=
  match x.1, e with
  | .bleHidsInpRepSend _ _ _ _, .uart _ => complaint passing x.2
  | .bleHidsInpRepSend _ _ _ _, _ => []
  | .bleBasBatteryLevelUpdate _, _ => complaint passing x.2
  | .sdClockHfclkRelease, _ => []
  | _, _ => complaint [] x.2

/-- What an answer of the Peer Manager makes of the call. -/
def pmComplaint (y : PmCall × ErrCode) : List ErrCode :=
  match y.1 with
  | .pmWhitelistSet _ => complaint [] y.2
  | .pmDeviceIdentitiesListSet _ => complaint [.notSupported] y.2
  | .pmPeerRankHighest _ => complaint [.busy] y.2
  | .pmConnSecure _ _ => complaint [.invalidState] y.2
  | .fdsGc => complaint [.fdsBusy, .fdsNoSpaceInQueues] y.2
  | .pmConnSecConfigReply _ _ | .pmLocalDatabaseHasChanged => []

/-! ### One call -/

theorem appErrorHandlerIf_adds (c : Prop) [Decidable c] (s : State (recording sdk))
    (err : ErrCode) : Adds s (appErrorHandlerIf c s err) [] [] (if c then [err] else []) := by
  refine ⟨(List.append_nil _).symm, (List.append_nil _).symm, ?_⟩
  by_cases h : c
  · simp only [appErrorHandlerIf, if_pos h]
  · simp only [appErrorHandlerIf, if_neg h, List.append_nil]

theorem appErrorCheck_adds (s : State (recording sdk)) (err : ErrCode) :
    Adds s (appErrorCheck s err) [] [] (complaint [] err) := by
  have hcheck : appErrorCheck s err = appErrorHandlerIf (err ∉ [] ∧ err ≠ .success) s err :=
    appErrorHandlerIf_congr (by simp) s err
  rw [hcheck]
  exact appErrorHandlerIf_adds _ s err

/-- The check that `keys_send` and `adc_event_handler` make. -/
theorem passing_adds (s : State (recording sdk)) (a : ErrCode) :
    Adds s (appErrorHandlerIf (a ≠ .success ∧ a ≠ .invalidState ∧ a ≠ .noTxPackets ∧
      a ≠ .gattsSysAttrMissing) s a) [] [] (complaint passing a) := by
  rw [appErrorHandlerIf_congr (not_mem_passing_iff a)]
  exact appErrorHandlerIf_adds _ s a

theorem linkCall_adds (s : State (recording sdk)) (c : LinkCall) :
    Adds s { s with link := ((recording sdk).linkCall s.link c).2 }
      [(c, ((recording sdk).linkCall s.link c).1)] [] [] :=
  ⟨rfl, (List.append_nil _).symm, (List.append_nil _).symm⟩

theorem pmCall_adds (s : State (recording sdk)) (c : PmCall) :
    Adds s { s with pm := ((recording sdk).pmCall s.pm c).2 } []
      [(c, ((recording sdk).pmCall s.pm c).1)] [] :=
  ⟨(List.append_nil _).symm, rfl, (List.append_nil _).symm⟩

theorem linkCallChecked_adds (s : State (recording sdk)) (c : LinkCall) :
    ∃ a, Adds s (linkCallChecked s c) [(c, a)] [] (complaint [] a) :=
  ⟨_, (linkCall_adds s c).trans (appErrorCheck_adds _ _)⟩

theorem pmCallChecked_adds (s : State (recording sdk)) (tolerated : List ErrCode) (c : PmCall) :
    ∃ a, Adds s (pmCallChecked s tolerated c) [] [(c, a)] (complaint tolerated a) :=
  ⟨_, (pmCall_adds s c).trans (appErrorHandlerIf_adds _ _ _)⟩

theorem whitelistSet_adds (s : State (recording sdk)) :
    ∃ a b, Adds s (whitelistSet s) []
      [(.pmWhitelistSet s.whitelisted, a), (.pmDeviceIdentitiesListSet s.whitelisted, b)]
      (complaint [] a ++ complaint [.notSupported] b) := by
  rw [whitelistSet_eq]
  obtain ⟨a, ha⟩ := pmCallChecked_adds s [] (.pmWhitelistSet s.whitelisted)
  obtain ⟨b, hb⟩ := pmCallChecked_adds (pmCallChecked s [] (.pmWhitelistSet s.whitelisted))
    [.notSupported] (.pmDeviceIdentitiesListSet s.whitelisted)
  exact ⟨a, b, ha.trans hb⟩

/-- `advertising_start` hands the rebuilt list over twice and has the advertising started. -/
theorem advertisingStart_adds (s : State (recording sdk)) :
    ∃ a b d, Adds s (advertisingStart s) [(.bleAdvertisingStart, d)]
      [(.pmWhitelistSet (rebuilt (recording sdk) s.pm), a),
        (.pmDeviceIdentitiesListSet (rebuilt (recording sdk) s.pm), b)]
      (complaint [] a ++ complaint [.notSupported] b ++ complaint [] d) := by
  obtain ⟨a, b, hset⟩ := whitelistSet_adds (rebuiltState s)
  obtain ⟨d, hstart⟩ := linkCallChecked_adds
    { whitelistSet (rebuiltState s) with mIsWlChangedAdvertising := false } .bleAdvertisingStart
  rw [whitelisted_rebuiltState] at hset
  rw [advertisingStart_eq]
  have hflag : Adds (whitelistSet (rebuiltState s))
      { whitelistSet (rebuiltState s) with mIsWlChangedAdvertising := false } [] [] [] :=
    .nothing rfl rfl rfl
  have hall := (hset.then_nothing hflag).trans hstart
  exact ⟨a, b, d, hall.link, hall.pm, hall.errors⟩

/-! ### A transmission -/

/-- The reports of a transmission are all it adds. In report mode, what is let pass of their answers
is what is let pass of the result: every answer before the last is a success. -/
theorem sendLoop_adds (n : ℕ) (s : State (recording sdk)) (errCode : ErrCode) (pHids : HidsPtr)
    (p : PatternPtr) (dataLen offset : ℕ) :
    ∃ xs, Adds s (sendLoop n s errCode pHids p dataLen offset).state xs [] [] ∧
      (∀ x ∈ xs, x.1.IsReport) ∧
      (s.mInBootMode = true →
        xs = [] ∧ (sendLoop n s errCode pHids p dataLen offset).errCode = errCode) ∧
      (s.mInBootMode = false → (0 < n ∨ errCode = .success) →
        xs.flatMap (complaint passing ·.2) =
          complaint passing (sendLoop n s errCode pHids p dataLen offset).errCode) := by
  induction n generalizing s errCode offset with
  | zero =>
    refine ⟨[], .refl s, by simp, fun _ => ⟨rfl, rfl⟩, ?_⟩
    rintro - (h | rfl)
    · exact absurd h (Nat.lt_irrefl 0)
    · rfl
  | succ n ih =>
    cases hmode : s.mInBootMode with
    | true =>
      have hpass : sendPass s errCode pHids p dataLen = (errCode, s) := by
        rw [sendPass, hmode, if_pos rfl]
      simp only [sendLoop, hpass]
      split_ifs
      · exact ⟨[], .refl s, by simp, fun _ => ⟨rfl, rfl⟩, by simp⟩
      · obtain ⟨xs, hadds, hreports, hboot, -⟩ := ih s errCode (u16 (offset + 1))
        exact ⟨xs, hadds, hreports, fun _ => hboot hmode, by simp⟩
      · exact ⟨[], .refl s, by simp, fun _ => ⟨rfl, rfl⟩, by simp⟩
    | false =>
      simp only [sendLoop]
      rw [sendPass_reportMode hmode]
      dsimp only
      have hone : Adds s (s.handed ((recording sdk).linkCall s.link (.bleHidsInpRepSend pHids
          joystickInputReportKeysIndex joystickInputReportKeysMaxLen (reportData s p dataLen))).2
          [keyReport s pHids p dataLen (firstAnswer s pHids p dataLen)])
          [(.bleHidsInpRepSend pHids joystickInputReportKeysIndex joystickInputReportKeysMaxLen
            (reportData s p dataLen), firstAnswer s pHids p dataLen)] [] [] :=
        ⟨rfl, (List.append_nil _).symm, (List.append_nil _).symm⟩
      split_ifs with hbad hmore
      · exact ⟨_, hone, by simp [LinkCall.IsReport], by simp, fun _ _ => by simp⟩
      · obtain ⟨xs, hadds, hreports, -, hpass⟩ := ih (s.handed _ _)
          (firstAnswer s pHids p dataLen) (u16 (offset + 1))
        have hgood : firstAnswer s pHids p dataLen = .success := not_not.mp hbad
        refine ⟨_, hone.trans hadds, ?_, by simp, ?_⟩
        · intro x hx
          rcases List.mem_append.mp hx with hx | hx
          · rw [List.mem_singleton.mp hx]
            trivial
          · exact hreports x hx
        · intro _ _
          rw [← hpass hmode (.inr hgood), List.flatMap_append, List.flatMap_singleton, hgood,
            complaint_success, List.nil_append]
      · exact ⟨_, hone, by simp [LinkCall.IsReport], by simp, fun _ _ => by simp⟩

theorem send_adds (s : State (recording sdk)) (uninit : ErrCode) (pHids : HidsPtr) (p : PatternPtr)
    (patternLen patternOffset : ℕ) :
    ∃ xs, Adds s (sendKeyScanPressRelease s uninit pHids p patternLen patternOffset).state
        xs [] [] ∧
      (∀ x ∈ xs, x.1.IsReport) ∧
      complaint passing
          (sendKeyScanPressRelease s uninit pHids p patternLen patternOffset).errCode =
        (if s.mInBootMode then complaint passing uninit else []) ++
          xs.flatMap (complaint passing ·.2) := by
  obtain ⟨xs, hadds, hreports, hboot, hreport⟩ :=
    sendLoop_adds (patternLen + 2) s uninit pHids p patternLen patternOffset
  refine ⟨xs, hadds, hreports, ?_⟩
  cases hmode : s.mInBootMode with
  | true =>
    obtain ⟨rfl, hkept⟩ := hboot hmode
    rw [if_pos rfl, List.flatMap_nil, List.append_nil]
    exact congrArg _ hkept
  | false =>
    rw [if_neg Bool.false_ne_true, List.nil_append]
    exact (hreport hmode (.inl (Nat.succ_pos _))).symm

/-- Only the reports of `keys_send` can be complained about. -/
theorem flatMap_linkComplaint_uart {xs : List (LinkCall × ErrCode)} (h : ∀ x ∈ xs, x.1.IsReport)
    (e : UartEvt) : xs.flatMap (linkComplaint (.uart e)) = xs.flatMap (complaint passing ·.2) := by
  refine List.flatMap_congr fun x hx => ?_
  obtain ⟨c, a⟩ := x
  cases c with
  | bleHidsInpRepSend => rfl
  | _ => exact (h _ hx).elim

theorem flatMap_linkComplaint_ble {xs : List (LinkCall × ErrCode)} (h : ∀ x ∈ xs, x.1.IsReport)
    (e : BleEvt) : xs.flatMap (linkComplaint (.ble e)) = [] := by
  refine List.flatMap_eq_nil_iff.mpr fun x hx => ?_
  obtain ⟨c, a⟩ := x
  cases c with
  | bleHidsInpRepSend => rfl
  | _ => exact (h _ hx).elim

theorem filter_reports {xs : List (LinkCall × ErrCode)} (h : ∀ x ∈ xs, x.1.IsReport) :
    (xs.map Prod.fst).filter (fun c => ¬ c.IsReport) = [] := by
  rw [List.filter_eq_nil_iff]
  intro c hc
  obtain ⟨x, hx, rfl⟩ := List.mem_map.mp hc
  simpa using h x hx

theorem bufferDequeue_adds (s : State (recording sdk)) (uninit : ErrCode) (txFlag : Bool) :
    ∃ xs, Adds s (bufferDequeue s uninit txFlag).2 xs [] [] ∧ ∀ x ∈ xs, x.1.IsReport := by
  rcases Nat.eq_zero_or_pos s.bufferList.count with hc | hc
  · rw [bufferDequeue_empty uninit txFlag hc]
    exact ⟨[], .refl s, by simp⟩
  cases txFlag with
  | false =>
    rw [bufferDequeue_false uninit hc]
    exact ⟨[], .nothing rfl rfl rfl, by simp⟩
  | true =>
    obtain ⟨xs, hadds, hreports, -⟩ := send_adds s uninit
      (s.bufferList.buffer s.bufferList.rp).pInstance (s.bufferList.buffer s.bufferList.rp).pData
      (s.bufferList.buffer s.bufferList.rp).dataLen (s.bufferList.buffer s.bufferList.rp).dataOffset
    refine ⟨xs, ?_, hreports⟩
    unfold bufferDequeue
    rw [if_neg (by rw [bufferListEmpty_iff]; omega), if_pos rfl]
    dsimp only
    split_ifs <;> exact hadds.then_nothing (.nothing rfl rfl rfl)

/-- `keys_send` complains of what its own reports were answered, and in boot mode of what `err_code`
held. -/
theorem keysSend_adds (s : State (recording sdk)) (uninit : ErrCode) (len : ℕ) (p : PatternPtr) :
    ∃ xs, Adds s (keysSend s uninit len p) xs []
        ((if s.mInBootMode then complaint passing uninit else []) ++
          xs.flatMap (complaint passing ·.2)) ∧
      ∀ x ∈ xs, x.1.IsReport := by
  obtain ⟨xs, hadds, hreports, hcode⟩ := send_adds s uninit .mHids p len 0
  refine ⟨xs, ?_, hreports⟩
  rw [← hcode]
  simp only [keysSend]
  generalize sendKeyScanPressRelease s uninit .mHids p len 0 = t at hadds ⊢
  have hkept : Adds t.state
      (if t.errCode = .noTxPackets ∧ t.actualLen ≤ len then
        { t.state with
          bufferList := (bufferEnqueue t.state.bufferList .mHids p len t.actualLen).2 }
      else t.state) [] [] [] := by
    split_ifs
    · exact .nothing rfl rfl rfl
    · exact .refl t.state
  have hall := (hadds.then_nothing hkept).trans (passing_adds _ t.errCode)
  rwa [List.append_nil, List.append_nil, List.nil_append] at hall

/-! ### What each event asks -/

/-- What `on_ble_evt` answers an authorize request with, if it does. -/
def authorizeReply (sdk : Sdk) (connHandle : ℕ) (type : AuthorizeType) (op : WriteOp) :
    List LinkCall :=
  if type ≠ .invalid ∧ (op = .prepWriteReq ∨ op = .execWriteReqNow ∨ op = .execWriteReqCancel) then
    [.sdBleGattsRwAuthorizeReply connHandle (if type = .write then .write else .read)
      (appFeatureNotSupported sdk)]
  else []

/-- What a request for the peer's address is answered with, if it is. -/
def peerAddrReply (s : State sdk) : List LinkCall :=
  if s.mPeerId ≠ pmPeerIdInvalid ∧ (sdk.pmPeerDataBondingLoad s.pm s.mPeerId).1 ≠ .notFound then
    [.bleAdvertisingPeerAddrReply (sdk.pmPeerDataBondingLoad s.pm s.mPeerId).2]
  else []

/-- The calls of the link that the handler of an event makes, but for reports. -/
def linkRequests (s : State sdk) : Event → List LinkCall
  | .ble (.gattcTimeout connHandle) | .ble (.gattsTimeout connHandle) =>
    [.sdBleGapDisconnect connHandle]
  | .ble .userMemRequest => [.sdBleUserMemReply s.mConnHandle]
  | .ble (.rwAuthorizeRequest connHandle type op) => authorizeReply sdk connHandle type op
  | .pm .peersDeleteSucceeded => [.bleAdvertisingStart]
  | .adv .idle => [.sdPowerSystemOff]
  | .adv .whitelistRequest =>
    let r := sdk.pmWhitelistGet s.pm sdk.bleGapWhitelistAddrMaxCount sdk.bleGapWhitelistAddrMaxCount
    [.bleAdvertisingWhitelistReply r.2.1 r.2.2]
  | .adv .peerAddrRequest => peerAddrReply s
  | .adc (.done samples) => [.sdClockHfclkRelease, .bleBasBatteryLevelUpdate
      (u8 (sdk.batteryLevelInPercent (adcResultMillivolts samples)))]
  | .adc .other => [.sdClockHfclkRelease]
  | _ => []

/-- The calls that hand a list over. -/
def listCalls (peers : List PeerId) : List PmCall :=
  [.pmWhitelistSet peers, .pmDeviceIdentitiesListSet peers]

/-- The calls of the Peer Manager that the handler of an event makes. -/
def pmRequests (s : State sdk) : Event → List PmCall
  | .pm (.bondedPeerConnected p) | .pm (.connSecSucceeded p _) => [.pmPeerRankHighest p]
  | .pm (.connSecFailed connHandle true) => [.pmConnSecure connHandle true]
  | .pm (.connSecConfigReq connHandle) => [.pmConnSecConfigReply connHandle false]
  | .pm .storageFull => [.fdsGc]
  | .pm .localDbCacheApplyFailed => [.pmLocalDatabaseHasChanged]
  | .pm .peersDeleteSucceeded => listCalls (rebuilt sdk s.pm)
  | .ble .disconnected => if s.mIsWlChangedConnection then listCalls s.whitelisted else []
  | _ => []

/-- The codes of an event itself, or of what its handler reads, that go to `APP_ERROR_HANDLER`. In
boot mode a changed frame adds what `err_code` held. -/
def ownErrors (s : State sdk) (i : Input) : List ErrCode :=
  match i.evt with
  | .uart (.rxDone _ _) =>
    if combinedState s.rxBuffer ≠ s.keypadState ∧ s.mInBootMode then complaint passing i.uninit
    else []
  | .pm (.errorUnexpected err) | .pm (.peerDeleteFailed err) | .pm (.peersDeleteFailed err) =>
    complaint [] err
  | .pm .peerDataUpdateFailed => [.success]
  | .adv .whitelistRequest => complaint [] (sdk.pmWhitelistGet s.pm
      sdk.bleGapWhitelistAddrMaxCount sdk.bleGapWhitelistAddrMaxCount).1
  | .adv .peerAddrRequest =>
    if s.mPeerId ≠ pmPeerIdInvalid then
      complaint [.notFound] (sdk.pmPeerDataBondingLoad s.pm s.mPeerId).1
    else []
  | _ => []

/-- **What the handler of an event asks for**: from `s` to `s'` it makes the calls `xs` of the link,
which are the requests and reports, and the calls `ys` of the Peer Manager, which are the requests;
and the errors are the event's own and the bad answers. -/
structure Asks (s s' : State (recording sdk)) (i : Input) (xs : List (LinkCall × ErrCode))
    (ys : List (PmCall × ErrCode)) : Prop where
  adds : Adds s s' xs ys
    (ownErrors s i ++ ys.flatMap pmComplaint ++ xs.flatMap (linkComplaint i.evt))
  link : (xs.map Prod.fst).filter (fun c => ¬ c.IsReport) = linkRequests s i.evt
  pm : ys.map Prod.fst = pmRequests s i.evt

theorem uart_asks (s : State (recording sdk)) (u : ErrCode) (e : UartEvt) :
    ∃ xs ys, Asks s (uartEventHandler s u e) ⟨.uart e, u⟩ xs ys := by
  cases e with
  | error | txDone => exact ⟨[], [], .refl s, rfl, rfl⟩
  | rxDone b₀ b₁ =>
    simp only [uartEventHandler, keypadChanged]
    split_ifs with hchanged
    · obtain ⟨xs, hadds, hreports⟩ :=
        keysSend_adds { s with keypadState := combinedState s.rxBuffer } u 2 .keypadState
      refine ⟨xs, [], ?_, filter_reports hreports, rfl⟩
      have hown : ownErrors s ⟨.uart (.rxDone b₀ b₁), u⟩ =
          if s.mInBootMode then complaint passing u else [] := by
        simp [ownErrors, hchanged]
      rw [hown, flatMap_linkComplaint_uart hreports, List.flatMap_nil, List.append_nil]
      exact ⟨hadds.link, hadds.pm, hadds.errors⟩
    · refine ⟨[], [], ?_, rfl, rfl⟩
      have hown : ownErrors s ⟨.uart (.rxDone b₀ b₁), u⟩ = [] := if_neg fun h => hchanged h.1
      rw [hown]
      exact .nothing rfl rfl rfl

/-- A handler that makes one checked call of the link. -/
theorem linkCallChecked_asks (s : State (recording sdk)) (i : Input) {c : LinkCall}
    (hreport : ¬ c.IsReport) (hown : ownErrors s i = [])
    (hcomplaint : ∀ a, linkComplaint i.evt (c, a) = complaint [] a)
    (hlink : linkRequests s i.evt = [c]) (hpm : pmRequests s i.evt = []) :
    ∃ xs ys, Asks s (linkCallChecked s c) i xs ys := by
  obtain ⟨a, ha⟩ := linkCallChecked_adds s c
  refine ⟨[(c, a)], [], ?_, ?_, hpm.symm⟩
  · rw [hown, List.flatMap_singleton, hcomplaint]
    exact ha
  · rw [hlink]
    simp [hreport]

/-- The disconnect's update of the whitelist hands it over if the flag is set. -/
theorem whitelistUpdate_adds (s : State (recording sdk)) :
    ∃ ys, Adds s (whitelistUpdate s) [] ys (ys.flatMap pmComplaint) ∧
      ys.map Prod.fst = if s.mIsWlChangedConnection then listCalls s.whitelisted else [] := by
  cases hflag : s.mIsWlChangedConnection with
  | false =>
    rw [whitelistUpdate_of_not_changed hflag]
    exact ⟨[], .refl s, rfl⟩
  | true =>
    obtain ⟨a, b, hset⟩ := whitelistSet_adds s
    refine ⟨[(.pmWhitelistSet s.whitelisted, a), (.pmDeviceIdentitiesListSet s.whitelisted, b)], ?_,
      rfl⟩
    rw [whitelistUpdate, if_pos hflag]
    exact ⟨hset.link, hset.pm, hset.errors.trans (by simp [pmComplaint])⟩

theorem ble_asks (s : State (recording sdk)) (u : ErrCode) (e : BleEvt) :
    ∃ xs ys, Asks s (onBleEvt s u e) ⟨.ble e, u⟩ xs ys := by
  cases e with
  | connected c => exact ⟨[], [], .nothing rfl rfl rfl, rfl, rfl⟩
  | txComplete n =>
    obtain ⟨xs, hadds, hreports⟩ := bufferDequeue_adds s u true
    refine ⟨xs, [], ?_, filter_reports hreports, rfl⟩
    rw [flatMap_linkComplaint_ble hreports]
    exact hadds
  | disconnected =>
    obtain ⟨xs, hadds, hreports⟩ := bufferDequeue_adds s u false
    obtain ⟨l, rs, b, hdeq, -⟩ := bufferDequeue_handed s u false
    simp only [onBleEvt]
    rw [hdeq] at hadds ⊢
    obtain ⟨ys, hupdate, hys⟩ := whitelistUpdate_adds
      { s.handed l rs with bufferList := b, mConnHandle := bleConnHandleInvalid }
    refine ⟨xs, ys, ?_, filter_reports hreports, hys⟩
    rw [flatMap_linkComplaint_ble hreports, List.append_nil]
    have hcleared : Adds { s.handed l rs with bufferList := b }
        { s.handed l rs with bufferList := b, mConnHandle := bleConnHandleInvalid } [] [] [] :=
      .nothing rfl rfl rfl
    have hall := (hadds.then_nothing hcleared).trans hupdate
    rwa [List.append_nil, List.nil_append] at hall
  | gattcTimeout c | gattsTimeout c | userMemRequest =>
    exact linkCallChecked_asks s _ id rfl (fun _ => rfl) rfl rfl
  | rwAuthorizeRequest c type op =>
    simp only [onBleEvt]
    split_ifs with hasked htype
    · refine linkCallChecked_asks s _ id rfl (fun _ => rfl) ?_ rfl
      simp [linkRequests, authorizeReply, hasked, htype]
    · refine linkCallChecked_asks s _ id rfl (fun _ => rfl) ?_ rfl
      simp only [linkRequests, authorizeReply, if_pos hasked, if_neg htype]
    · refine ⟨[], [], .nothing rfl rfl rfl, ?_, rfl⟩
      simp only [linkRequests, authorizeReply, if_neg hasked]
      rfl
  | other n => exact ⟨[], [], .refl s, rfl, rfl⟩

/-- A handler that makes one call of the Peer Manager, its answer checked. -/
theorem pmCallChecked_asks (s : State (recording sdk)) (i : Input) {tolerated : List ErrCode}
    {c : PmCall} (hown : ownErrors s i = [])
    (hcomplaint : ∀ a, pmComplaint (c, a) = complaint tolerated a)
    (hlink : linkRequests s i.evt = []) (hpm : pmRequests s i.evt = [c]) :
    ∃ xs ys, Asks s (pmCallChecked s tolerated c) i xs ys := by
  obtain ⟨a, ha⟩ := pmCallChecked_adds s tolerated c
  refine ⟨[], [(c, a)], ?_, hlink.symm, hpm.symm⟩
  rw [hown, List.flatMap_singleton, hcomplaint, List.flatMap_nil, List.append_nil]
  exact ha

/-- What comes after the handler's calls, or before them, is no matter. -/
theorem Asks.then_nothing {s s' s'' : State (recording sdk)} {i : Input}
    {xs : List (LinkCall × ErrCode)} {ys : List (PmCall × ErrCode)} (h : Asks s s' i xs ys)
    (h' : Adds s' s'' [] [] []) : Asks s s'' i xs ys :=
  ⟨h.adds.then_nothing h', h.link, h.pm⟩

theorem peerConnected_asks (s : State (recording sdk)) (p : PeerId) (i : Input)
    (hown : ownErrors s i = []) (hlink : linkRequests s i.evt = [])
    (hpm : pmRequests s i.evt = [.pmPeerRankHighest p]) :
    ∃ xs ys, Asks s (peerConnected s p) i xs ys := by
  obtain ⟨a, ha⟩ := pmCallChecked_adds { s with mPeerId := p } [.busy] (.pmPeerRankHighest p)
  refine ⟨[], [(.pmPeerRankHighest p, a)], ?_, hlink.symm, hpm.symm⟩
  rw [hown, List.flatMap_nil, List.append_nil]
  exact ⟨ha.link, ha.pm, by rw [peerConnected, ha.errors]; simp [pmComplaint]⟩

/-- An event whose handler does no more than check the code it carries. -/
theorem appErrorCheck_asks (s : State (recording sdk)) (i : Input) {err : ErrCode}
    (hown : ownErrors s i = complaint [] err) (hlink : linkRequests s i.evt = [])
    (hpm : pmRequests s i.evt = []) : ∃ xs ys, Asks s (appErrorCheck s err) i xs ys := by
  refine ⟨[], [], ?_, hlink.symm, hpm.symm⟩
  rw [hown, List.flatMap_nil, List.flatMap_nil, List.append_nil, List.append_nil]
  exact appErrorCheck_adds s err

theorem pm_asks (s : State (recording sdk)) (u : ErrCode) (e : PmEvt) :
    ∃ xs ys, Asks s (pmEvtHandler s e) ⟨.pm e, u⟩ xs ys := by
  cases e with
  | bondedPeerConnected p => exact peerConnected_asks s p _ rfl rfl rfl
  | connSecSucceeded p procedure =>
    obtain ⟨xs, ys, hasks⟩ :=
      peerConnected_asks s p ⟨.pm (.connSecSucceeded p procedure), u⟩ rfl rfl rfl
    refine ⟨xs, ys, hasks.then_nothing ?_⟩
    simp only [pmEvtHandler, whitelistAppend]
    split_ifs <;> exact .nothing rfl rfl rfl
  | connSecFailed c missing =>
    cases missing with
    | true => exact pmCallChecked_asks s _ rfl (fun _ => rfl) rfl rfl
    | false => exact ⟨[], [], .refl s, rfl, rfl⟩
  | connSecConfigReq c =>
    exact ⟨[], _, (pmCall_adds s (.pmConnSecConfigReply c false)), rfl, rfl⟩
  | storageFull => exact pmCallChecked_asks s _ rfl (fun _ => rfl) rfl rfl
  | errorUnexpected err | peerDeleteFailed err | peersDeleteFailed err =>
    exact appErrorCheck_asks s _ rfl rfl rfl
  | peerDataUpdateFailed =>
    exact ⟨[], [], ⟨(List.append_nil _).symm, (List.append_nil _).symm, rfl⟩, rfl, rfl⟩
  | localDbCacheApplyFailed =>
    exact ⟨[], _, (pmCall_adds s .pmLocalDatabaseHasChanged), rfl, rfl⟩
  | peersDeleteSucceeded =>
    obtain ⟨a, b, d, hadds⟩ := advertisingStart_adds s
    refine ⟨_, _, ⟨hadds.link, hadds.pm, ?_⟩, rfl, rfl⟩
    rw [pmEvtHandler, hadds.errors]
    simp [ownErrors, pmComplaint, linkComplaint]
  | connSecStart | peerDataUpdateSucceeded | peerDeleteSucceeded | localDbCacheApplied
  | serviceChangedIndSent | serviceChangedIndConfirmed =>
    exact ⟨[], [], .refl s, rfl, rfl⟩

theorem adv_asks (s : State (recording sdk)) (u : ErrCode) (e : AdvEvt) :
    ∃ xs ys, Asks s (onAdvEvt s e) ⟨.adv e, u⟩ xs ys := by
  cases e with
  | directed | fast | slow | fastWhitelist | slowWhitelist =>
    exact ⟨[], [], .refl s, rfl, rfl⟩
  | idle => exact linkCallChecked_asks s _ id rfl (fun _ => rfl) rfl rfl
  | whitelistRequest =>
    simp only [onAdvEvt]
    generalize hr : (recording sdk).pmWhitelistGet s.pm _ _ = r
    obtain ⟨a, ha⟩ := linkCallChecked_adds (appErrorCheck s r.1)
      (.bleAdvertisingWhitelistReply r.2.1 r.2.2)
    have hall := (appErrorCheck_adds s r.1).trans ha
    refine ⟨_, [], ⟨hall.link, hall.pm, ?_⟩, ?_, rfl⟩
    · rw [hall.errors]
      simp [ownErrors, linkComplaint, hr]
    · simp [linkRequests, hr, LinkCall.IsReport]
  | peerAddrRequest =>
    simp only [onAdvEvt]
    generalize hr : (recording sdk).pmPeerDataBondingLoad s.pm s.mPeerId = r
    split_ifs with hvalid hfound
    · obtain ⟨a, ha⟩ := linkCallChecked_adds
        { appErrorCheck s r.1 with replies := (appErrorCheck s r.1).replies ++ [r.2] }
        (.bleAdvertisingPeerAddrReply r.2)
      have hreplies : Adds (appErrorCheck s r.1)
          { appErrorCheck s r.1 with replies := (appErrorCheck s r.1).replies ++ [r.2] } [] [] [] :=
        .nothing rfl rfl rfl
      have hall := ((appErrorCheck_adds s r.1).then_nothing hreplies).trans ha
      refine ⟨_, [], ⟨hall.link, hall.pm, ?_⟩, ?_, rfl⟩
      · rw [hall.errors]
        simp [ownErrors, linkComplaint, hr, hvalid, hfound, complaint]
      · simp [linkRequests, peerAddrReply, hr, hvalid, hfound, LinkCall.IsReport]
    · refine ⟨[], [], ?_, ?_, rfl⟩
      · have hown : ownErrors s ⟨.adv .peerAddrRequest, u⟩ = [] := by
          simp [ownErrors, complaint, hr, hfound]
        rw [hown]
        exact .refl s
      · simp [linkRequests, peerAddrReply, hr, hfound]
    · refine ⟨[], [], ?_, ?_, rfl⟩
      · have hown : ownErrors s ⟨.adv .peerAddrRequest, u⟩ = [] := if_neg hvalid
        rw [hown]
        exact .refl s
      · simp [linkRequests, peerAddrReply, hvalid]

/-- The battery level is sent, and the answer checked. -/
theorem levelUpdate_adds (s : State (recording sdk)) (level : ℕ) :
    ∃ a, Adds s
      (let r := (recording sdk).linkCall s.link (.bleBasBatteryLevelUpdate level)
      appErrorHandlerIf (r.1 ≠ .success ∧ r.1 ≠ .invalidState ∧ r.1 ≠ .noTxPackets ∧
        r.1 ≠ .gattsSysAttrMissing) { s with link := r.2 } r.1)
      [(.bleBasBatteryLevelUpdate level, a)] [] (complaint passing a) :=
  ⟨_, (linkCall_adds s _).trans (passing_adds _ _)⟩

theorem adc_asks (s : State (recording sdk)) (u : ErrCode) (e : AdcEvt) :
    ∃ xs ys, Asks s (adcEventHandler s e) ⟨.adc e, u⟩ xs ys := by
  have hrelease := linkCall_adds s .sdClockHfclkRelease
  cases e with
  | other => exact ⟨_, [], hrelease, rfl, rfl⟩
  | done samples =>
    obtain ⟨a, hupdate⟩ := levelUpdate_adds
      { s with link := ((recording sdk).linkCall s.link .sdClockHfclkRelease).2 }
      (u8 ((recording sdk).batteryLevelInPercent (adcResultMillivolts samples)))
    have hall := hrelease.trans hupdate
    refine ⟨_, [], ⟨hall.link, hall.pm, ?_⟩, rfl, rfl⟩
    exact hall.errors.trans (by simp [ownErrors, linkComplaint])

theorem hids_asks (s : State (recording sdk)) (u : ErrCode) (e : HidsEvt) :
    ∃ xs ys, Asks s (onHidsEvt s e) ⟨.hids e, u⟩ xs ys := by
  cases e <;> exact ⟨[], [], .nothing rfl rfl rfl, rfl, rfl⟩

/-- **What each event asks for.** -/
theorem step_asks (s : State (recording sdk)) (i : Input) :
    ∃ xs ys, Asks (deliver s i.evt) (step s i) i xs ys := by
  obtain ⟨e, u⟩ := i
  cases e with
  | uart e => exact uart_asks _ u e
  | ble e => exact ble_asks _ u e
  | hids e => exact hids_asks _ u e
  | pm e => exact pm_asks _ u e
  | adv e => exact adv_asks _ u e
  | adc e => exact adc_asks _ u e

/-! ### Runs that never reach the error handler -/

/-- The calls of the link made for an event. -/
def newLinkCalls (s : State (recording sdk)) (i : Input) : List (LinkCall × ErrCode) :=
  (step s i).linkCalls.drop s.linkCalls.length

/-- The calls of the Peer Manager made for an event. -/
def newPmCalls (s : State (recording sdk)) (i : Input) : List (PmCall × ErrCode) :=
  (step s i).pmCalls.drop s.pmCalls.length

/-- What `step_asks` says of the calls made. -/
theorem step_new (s : State (recording sdk)) (i : Input) :
    Asks (deliver s i.evt) (step s i) i (newLinkCalls s i) (newPmCalls s i) := by
  obtain ⟨xs, ys, hasks⟩ := step_asks s i
  have hxs : newLinkCalls s i = xs := by
    rw [newLinkCalls, hasks.adds.link]
    exact List.drop_left
  have hys : newPmCalls s i = ys := by
    rw [newPmCalls, hasks.adds.pm]
    exact List.drop_left
  rw [hxs, hys]
  exact hasks

/-- **An event passes**: it carries no bad code, and every answer its handler checks is one the
check lets pass. -/
structure Passes (s : State (recording sdk)) (i : Input) : Prop where
  own : ownErrors (deliver s i.evt) i = []
  pm : ∀ y ∈ newPmCalls s i, pmComplaint y = []
  link : ∀ x ∈ newLinkCalls s i, linkComplaint i.evt x = []

theorem step_errors_iff (s : State (recording sdk)) (i : Input) :
    (step s i).errors = s.errors ↔ Passes s i := by
  have herrors := (step_new s i).adds.errors
  rw [show (deliver s i.evt).errors = s.errors from rfl] at herrors
  rw [herrors, List.append_right_eq_self, List.append_eq_nil_iff, List.append_eq_nil_iff,
    List.flatMap_eq_nil_iff, List.flatMap_eq_nil_iff]
  exact ⟨fun h => ⟨h.1.1, h.1.2, h.2⟩, fun h => ⟨⟨h.own, h.pm⟩, h.link⟩⟩

/-- No event takes an error back. -/
theorem errors_prefix_step (s : State (recording sdk)) (i : Input) :
    s.errors <+: (step s i).errors :=
  ⟨_, (step_new s i).adds.errors.symm⟩

theorem errors_prefix_run (s : State (recording sdk)) (es : List Input) :
    s.errors <+: (run step s es).errors :=
  Along.run_inv (I := fun t => s.errors <+: t.errors)
    (fun t i h _ => h.trans (errors_prefix_step t i)) (along_true s es) List.prefix_rfl

theorem run_errors_iff (s : State (recording sdk)) (es : List Input) :
    (run step s es).errors = s.errors ↔ Along step Passes s es := by
  induction es generalizing s with
  | nil => exact iff_of_true rfl trivial
  | cons i es ih =>
    rw [run_cons, Along, ← ih, ← step_errors_iff]
    constructor
    · intro h
      have hle := (errors_prefix_run (step s i) es).length_le
      rw [h] at hle
      have hstep := (errors_prefix_step s i).eq_of_length_le hle
      exact ⟨hstep.symm, h.trans hstep⟩
    · rintro ⟨hstep, hrest⟩
      rw [hrest, hstep]

/-- What the `advertising_start` of the start-up asks for. -/
theorem boot_asks (link : sdk.Link) (pm : sdk.Pm) (uart : sdk.Uart) :
    ∃ a b d, (recordedBoot link pm uart).linkCalls = [(.bleAdvertisingStart, d)] ∧
      (recordedBoot link pm uart).pmCalls =
        [(.pmWhitelistSet (rebuilt sdk pm), a), (.pmDeviceIdentitiesListSet (rebuilt sdk pm), b)] ∧
      (recordedBoot link pm uart).errors =
        complaint [] a ++ complaint [.notSupported] b ++ complaint [] d := by
  obtain ⟨a, b, d, hadds⟩ := advertisingStart_adds
    (keypadReceiverInit (bufferInit (@State.reset (recording sdk) (link, []) (pm, []) (uart, []))))
  exact ⟨a, b, d, hadds.link, hadds.pm, hadds.errors⟩

/-- **The runs in which neither `advertising_start` nor an event's handler calls
`APP_ERROR_HANDLER`** are those in which the three calls of the `advertising_start` at the start-up
succeed, but that the identities may be unsupported, and every event passes. -/
theorem errors_run_iff (link : sdk.Link) (pm : sdk.Pm) (uart : sdk.Uart) (es : List Input) :
    (run step (boot link pm uart) es).errors = [] ↔
      ((∀ y ∈ (recordedBoot link pm uart).pmCalls, pmComplaint y = []) ∧
        ∀ x ∈ (recordedBoot link pm uart).linkCalls, x.2 = .success) ∧
      Along step Passes (recordedBoot link pm uart) es := by
  have hrun : (run step (boot link pm uart) es).errors =
      (run step (recordedBoot link pm uart) es).errors :=
    congrArg State.errors (forget_run link pm uart es).symm
  obtain ⟨a, b, d, hlink, hpm, herrors⟩ := boot_asks link pm uart
  have hboot : (recordedBoot link pm uart).errors = [] ↔
      (∀ y ∈ (recordedBoot link pm uart).pmCalls, pmComplaint y = []) ∧
        ∀ x ∈ (recordedBoot link pm uart).linkCalls, x.2 = .success := by
    rw [herrors, hlink, hpm]
    simp [pmComplaint, complaint_eq_nil_iff, and_assoc]
  rw [hrun, ← hboot, ← run_errors_iff]
  constructor
  · intro h
    have hprefix := errors_prefix_run (recordedBoot link pm uart) es
    rw [h] at hprefix
    have hstart := List.prefix_nil.mp hprefix
    exact ⟨hstart, h.trans hstart.symm⟩
  · rintro ⟨hstart, hrest⟩
    rw [hrest, hstart]

end SnesController
