import SnesController.ReportMode

/-!
# The buffer does not stall

Only a completed transmission takes a key change out of the buffer while the connection lasts,
so one must still be to come whenever the buffer holds a change (`outstanding_of_buffered`).
Every call of `keys_send` and every dequeue hands at least one report to the link. If the link
takes the last of them, it is outstanding; if it has no room, others are.

`outstanding` is how many notifications the stack has accepted and not yet reported as
completed, and `LinkLaws` what the stack does with it. How many of them a completed
transmission retires makes no difference, and neither does an overfull buffer.
-/

namespace SnesController

open EventRun

variable {sdk : Sdk} {outstanding : sdk.Link → ℕ}

/-- **The stack's notifications**: it takes a report, which is then outstanding, or has no room,
which it has only with something outstanding. No call takes a notification back, and no event
does but a completed transmission and a disconnect. -/
structure LinkLaws (sdk : Sdk) (outstanding : sdk.Link → ℕ) : Prop where
  answers : ∀ l p i n d,
    (sdk.linkCall l (.bleHidsInpRepSend p i n d)).1 = .success ∨
      (sdk.linkCall l (.bleHidsInpRepSend p i n d)).1 = .noTxPackets
  taken : ∀ l p i n d, (sdk.linkCall l (.bleHidsInpRepSend p i n d)).1 = .success →
    outstanding (sdk.linkCall l (.bleHidsInpRepSend p i n d)).2 = outstanding l + 1
  noRoom : ∀ l p i n d, (sdk.linkCall l (.bleHidsInpRepSend p i n d)).1 = .noTxPackets →
    1 ≤ outstanding l
  calls : ∀ l c, outstanding l ≤ outstanding (sdk.linkCall l c).2
  events : ∀ l e, (∀ n, e ≠ .ble (.txComplete n)) → e ≠ .ble .disconnected →
    outstanding l ≤ outstanding (sdk.linkDeliver l e)

/-- After a report is handed over, one is outstanding, whether the link took it or not. -/
theorem LinkLaws.handed (laws : LinkLaws sdk outstanding) (l : sdk.Link) (p : HidsPtr) (i n : ℕ)
    (d : List UInt8) : 1 ≤ outstanding (sdk.linkCall l (.bleHidsInpRepSend p i n d)).2 := by
  rcases laws.answers l p i n d with h | h
  · rw [laws.taken l p i n d h]
    exact Nat.le_add_left 1 _
  · exact (laws.noRoom l p i n d h).trans (laws.calls l _)

theorem LinkLaws.send (laws : LinkLaws sdk outstanding) (s : State sdk) (uninit : ErrCode)
    (pHids : HidsPtr) (p : PatternPtr) (patternLen offset : ℕ) (hmode : s.mInBootMode = false) :
    1 ≤ outstanding
      (sendKeyScanPressRelease s uninit pHids p patternLen offset).state.link := by
  obtain ⟨l, hl⟩ := sendLoop_link (patternLen + 1) s uninit pHids p patternLen offset hmode
  rw [sendKeyScanPressRelease, hl]
  exact laws.handed l pHids _ _ _

theorem link_keysSend (s : State sdk) (uninit : ErrCode) (len : ℕ) (p : PatternPtr) :
    (keysSend s uninit len p).link =
      (sendKeyScanPressRelease s uninit .mHids p len 0).state.link := by
  simp only [keysSend]
  split_ifs <;> rfl

theorem link_bufferDequeue {s : State sdk} (uninit : ErrCode) (hc : 0 < s.bufferList.count) :
    (bufferDequeue s uninit true).2.link =
      (sendKeyScanPressRelease s uninit (s.bufferList.buffer s.bufferList.rp).pInstance
        (s.bufferList.buffer s.bufferList.rp).pData (s.bufferList.buffer s.bufferList.rp).dataLen
        (s.bufferList.buffer s.bufferList.rp).dataOffset).state.link := by
  unfold bufferDequeue
  rw [if_neg (by rw [bufferListEmpty_iff]; omega), if_pos rfl]
  dsimp only
  split_ifs <;> rfl

/-! ### The other handlers take no notification back -/

theorem LinkLaws.onAdvEvt (laws : LinkLaws sdk outstanding) (s : State sdk) (e : AdvEvt) :
    outstanding s.link ≤ outstanding (onAdvEvt s e).link := by
  cases e with
  | directed | fast | slow | fastWhitelist | slowWhitelist => exact Nat.le_refl _
  | idle | whitelistRequest => exact laws.calls _ _
  | peerAddrRequest =>
    simp only [SnesController.onAdvEvt]
    split_ifs
    · exact laws.calls _ _
    · exact Nat.le_refl _
    · exact Nat.le_refl _

theorem LinkLaws.pmEvtHandler (laws : LinkLaws sdk outstanding) (s : State sdk) (e : PmEvt) :
    outstanding s.link ≤ outstanding (pmEvtHandler s e).link := by
  cases e with
  | connSecSucceeded p procedure =>
    simp only [SnesController.pmEvtHandler, whitelistAppend]
    split_ifs <;> exact Nat.le_refl _
  | connSecFailed c missing => cases missing <;> exact Nat.le_refl _
  | peersDeleteSucceeded => exact laws.calls _ _
  | _ => exact Nat.le_refl _

theorem LinkLaws.adcEventHandler (laws : LinkLaws sdk outstanding) (s : State sdk) (e : AdcEvt) :
    outstanding s.link ≤ outstanding (adcEventHandler s e).link := by
  cases e with
  | done samples => exact (laws.calls _ _).trans (laws.calls _ _)
  | other => exact laws.calls _ _

theorem LinkLaws.onBleEvt (laws : LinkLaws sdk outstanding) (s : State sdk) (u : ErrCode)
    {e : BleEvt} (ht : ∀ n, e ≠ .txComplete n) (hd : e ≠ .disconnected) :
    outstanding s.link ≤ outstanding (onBleEvt s u e).link := by
  cases e with
  | txComplete n => exact absurd rfl (ht n)
  | disconnected => exact absurd rfl hd
  | connected | other => exact Nat.le_refl _
  | gattcTimeout | gattsTimeout | userMemRequest => exact laws.calls _ _
  | rwAuthorizeRequest c t o =>
    simp only [SnesController.onBleEvt]
    split_ifs
    · exact laws.calls _ _
    · exact laws.calls _ _
    · exact Nat.le_refl _

/-- An event that is not on the key path takes no notification back. -/
theorem LinkLaws.step_of_not_key (laws : LinkLaws sdk outstanding) {s : State sdk} {i : Input}
    (h : ¬ i.evt.IsKey) : outstanding s.link ≤ outstanding (step s i).link := by
  obtain ⟨e, u⟩ := i
  have ht : ∀ n, e ≠ .ble (.txComplete n) := by
    rintro n rfl
    exact h trivial
  have hd : e ≠ .ble .disconnected := by
    rintro rfl
    exact h trivial
  apply (laws.events s.link e ht hd).trans
  cases e with
  | uart e =>
    cases e with
    | rxDone b₀ b₁ => exact absurd trivial h
    | error | txDone => exact Nat.le_refl _
  | ble e =>
    exact laws.onBleEvt (deliver s (.ble e)) u (fun n hn => ht n (congrArg Event.ble hn))
      (fun he => hd (congrArg Event.ble he))
  | hids e => cases e <;> exact Nat.le_refl _
  | pm e => exact laws.pmEvtHandler (deliver s (.pm e)) e
  | adv e => exact laws.onAdvEvt (deliver s (.adv e)) e
  | adc e => exact laws.adcEventHandler (deliver s (.adc e)) e

/-! ### Runs -/

/-- In report mode, with something outstanding whenever the buffer is not empty. -/
structure Drains (outstanding : sdk.Link → ℕ) (s : State sdk) : Prop where
  mode : s.mInBootMode = false
  outstanding_of_buffered : s.bufferList.count ≠ 0 → 1 ≤ outstanding s.link

theorem Drains.step (laws : LinkLaws sdk outstanding) {s : State sdk} {i : Input}
    (h : Drains outstanding s) (hd : i.evt ≠ .ble .disconnected)
    (hm : i.evt ≠ .hids .bootModeEntered) : Drains outstanding (step s i) := by
  refine ⟨step_mode hm h.mode, ?_⟩
  by_cases hkey : i.evt.IsKey
  swap
  · rw [(step_keysSame hkey).bufferList]
    exact fun hc => (h.outstanding_of_buffered hc).trans (laws.step_of_not_key hkey)
  obtain ⟨e, u⟩ := i
  cases e with
  | uart e =>
    cases e with
    | error | txDone => exact hkey.elim
    | rxDone b₀ b₁ =>
      by_cases hne : combinedState (b₀, b₁) = s.keypadState
      · rw [step_rxDone_of_eq u hne]
        exact fun hc => (h.outstanding_of_buffered hc).trans
          (laws.events s.link (.uart (.rxDone b₀ b₁)) nofun nofun)
      · rw [step_rxDone_of_ne u hne]
        intro _
        show 1 ≤ outstanding (keysSend (changedState s b₀ b₁) u 2 .keypadState).link
        rw [link_keysSend]
        exact laws.send _ _ _ _ _ _ h.mode
  | ble e =>
    cases e with
    | txComplete n =>
      rw [step_txComplete]
      rcases Nat.eq_zero_or_pos s.bufferList.count with hc | hc
      · rw [bufferDequeue_empty (s := deliver s (.ble (.txComplete n))) u true hc]
        exact fun hne => absurd hc hne
      · intro _
        rw [link_bufferDequeue (s := deliver s (.ble (.txComplete n))) u hc]
        exact laws.send _ _ _ _ _ _ h.mode
    | disconnected => exact absurd rfl hd
    | _ => exact hkey.elim
  | hids e =>
    cases e with
    | bootModeEntered => exact absurd rfl hm
    | reportModeEntered =>
      exact fun hc => (h.outstanding_of_buffered hc).trans
        (laws.events s.link (.hids .reportModeEntered) nofun nofun)
    | _ => exact hkey.elim
  | pm e | adv e | adc e => exact hkey.elim

/-- **The buffer does not stall**: on a connection in report mode that is not interrupted, a
notification is outstanding whenever the buffer is not empty, so a completed transmission is
still to come. -/
theorem outstanding_of_buffered (laws : LinkLaws sdk outstanding) (link : sdk.Link) (pm : sdk.Pm)
    (uart : sdk.Uart) {es : List Input}
    (hA : ∀ i ∈ es, i.evt ≠ .ble .disconnected ∧ i.evt ≠ .hids .bootModeEntered)
    (hc : (run step (boot link pm uart) es).bufferList.count ≠ 0) :
    1 ≤ outstanding (run step (boot link pm uart) es).link := by
  have hinv : Drains outstanding (run step (boot link pm uart) es) :=
    Along.run_inv (fun s i h hi => h.step laws hi.1 hi.2) (along_inputs.mpr hA)
      ⟨rfl, fun hne => absurd rfl hne⟩
  exact hinv.outstanding_of_buffered hc

/-! ### On an SDK -/

/-- A notification on the SDK with TX buffers. -/
theorem device_notify (txBuffers outstanding : ℕ) :
    outstanding ≤ (if outstanding < txBuffers then (ErrCode.success, outstanding + 1)
      else (.noTxPackets, outstanding)).2 := by
  split_ifs
  · exact Nat.le_succ _
  · exact Nat.le_refl _

theorem device_linkLaws {txBuffers : ℕ} (hpos : 0 < txBuffers) :
    LinkLaws (device txBuffers) (deviceOutstanding txBuffers) where
  answers l p i n d := by
    simp only [device]
    split_ifs
    · exact .inl rfl
    · exact .inr rfl
  taken l p i n d h := by
    simp only [device] at h ⊢
    split_ifs at h ⊢
    rfl
  noRoom l p i n d h := by
    simp only [device] at h
    split_ifs at h with hlt
    exact hpos.trans_le (Nat.le_of_not_lt hlt)
  calls l c := by
    cases c with
    | bleHidsInpRepSend p i n d => exact device_notify txBuffers l
    | bleBasBatteryLevelUpdate v => exact device_notify txBuffers l
    | _ => exact Nat.le_refl _
  events l e ht hd := by
    cases e with
    | ble e =>
      cases e with
      | txComplete n => exact absurd rfl (ht n)
      | disconnected => exact absurd rfl hd
      | _ => exact Nat.le_refl _
    | _ => exact Nat.le_refl _

/-- Two changes buffered behind a battery notification. -/
theorem outstanding_of_battery :
    1 ≤ deviceOutstanding 1 (run step (deviceBoot 1)
      [⟨.adc (.done [900, 900]), .success⟩, frame 0 1, frame 0 2]).link :=
  outstanding_of_buffered (device_linkLaws Nat.one_pos) (deviceLink 1) (devicePm 1) (deviceUart 1)
    (by decide) (by decide)

end SnesController
