import SnesController.Firmware

/-!
# The key path

What one event does to the key path: the key buffer, `keypad_state`, the protocol mode and
the reports handed to the link. `step_keyEffect` says what a completed receive, a completed
transmission, a disconnect and a change of mode can do, whatever the mode and whatever the
link answers, and that every other event leaves the key path alone.
-/

namespace SnesController

open RingBuffer EventRun

variable {sdk : Sdk}

/-- The key path is left alone. -/
structure KeysSame (s s' : State sdk) : Prop where
  bufferList : s'.bufferList = s.bufferList
  keypadState : s'.keypadState = s.keypadState
  mode : s'.mInBootMode = s.mInBootMode
  reports : s'.reports = s.reports

theorem KeysSame.trans {s s' s'' : State sdk} (h : KeysSame s s') (h' : KeysSame s' s'') :
    KeysSame s s'' :=
  ⟨h'.bufferList.trans h.bufferList, h'.keypadState.trans h.keypadState, h'.mode.trans h.mode,
    h'.reports.trans h.reports⟩

/-- The events that touch the key path. -/
def Event.IsKey : Event → Prop
  | .uart (.rxDone _ _) | .ble (.txComplete _) | .ble .disconnected
  | .hids .bootModeEntered | .hids .reportModeEntered => True
  | _ => False

/-- Whether the handler of the event calls `keys_send`: a frame that changes the key state. -/
def callsKeysSend (s : State sdk) : Event → Bool
  | .uart (.rxDone b₀ b₁) => combinedState (b₀, b₁) ≠ s.keypadState
  | _ => false

/-! ### The events that leave the key path alone -/

theorem deliver_keysSame (s : State sdk) (e : Event) : KeysSame s (deliver s e) :=
  ⟨rfl, rfl, rfl, rfl⟩

theorem whitelistUpdate_keysSame (s : State sdk) : KeysSame s (whitelistUpdate s) := by
  obtain ⟨pm, wc, es, heq⟩ := whitelistUpdate_frame s
  rw [heq]
  exact ⟨rfl, rfl, rfl, rfl⟩

/-- The events that are not handled by the key path's files. -/
def Event.IsOther : Event → Prop
  | .pm _ | .adv _ | .adc _ => True
  | _ => False

theorem Handled.keysSame {s s' : State sdk} {e : Event} (h : Handled s e s') (he : e.IsOther) :
    KeysSame s s' := by
  cases h with
  | uart | ble | hids => exact he.elim
  | pm | adv | adc => exact ⟨rfl, rfl, rfl, rfl⟩

/-- An event that is not on the key path leaves it alone. -/
theorem step_keysSame {s : State sdk} {i : Input} (h : ¬ i.evt.IsKey) : KeysSame s (step s i) := by
  obtain ⟨e, u⟩ := i
  cases e with
  | uart e =>
    cases e with
    | rxDone b₀ b₁ => exact absurd trivial h
    | error | txDone => exact ⟨rfl, rfl, rfl, rfl⟩
  | ble e =>
    have ht : ∀ n, e ≠ .txComplete n := by
      rintro n rfl
      exact h trivial
    have hd : e ≠ .disconnected := by
      rintro rfl
      exact h trivial
    obtain ⟨l, c, es, heq⟩ := onBleEvt_frame_of_ne (deliver s (.ble e)) u ht hd
    rw [step_ble, heq]
    exact ⟨rfl, rfl, rfl, rfl⟩
  | hids e =>
    cases e with
    | bootModeEntered | reportModeEntered => exact absurd trivial h
    | repCharWrite | notifEnabled | other => exact ⟨rfl, rfl, rfl, rfl⟩
  | pm e | adv e | adc e =>
    exact (deliver_keysSame s _).trans ((step_handled s ⟨_, u⟩).keysSame trivial)

/-! ### The events on the key path -/

/-- The state in which a frame is passed to `keys_send`. -/
def changedState (s : State sdk) (b₀ b₁ : UInt8) : State sdk :=
  { deliver s (.uart (.rxDone b₀ b₁)) with keypadState := combinedState (b₀, b₁) }

theorem step_rxDone_of_ne {s : State sdk} {b₀ b₁ : UInt8} (u : ErrCode)
    (h : combinedState (b₀, b₁) ≠ s.keypadState) :
    step s ⟨.uart (.rxDone b₀ b₁), u⟩ =
      uartCall (keysSend (changedState s b₀ b₁) u 2 .keypadState) (.nrfDrvUartRx keypadRx) :=
  congrArg (uartCall · (.nrfDrvUartRx keypadRx)) (if_pos h)

theorem step_rxDone_of_eq {s : State sdk} {b₀ b₁ : UInt8} (u : ErrCode)
    (h : combinedState (b₀, b₁) = s.keypadState) :
    step s ⟨.uart (.rxDone b₀ b₁), u⟩ =
      uartCall (deliver s (.uart (.rxDone b₀ b₁))) (.nrfDrvUartRx keypadRx) :=
  congrArg (uartCall · (.nrfDrvUartRx keypadRx)) (if_neg (not_not_intro h))

theorem step_txComplete (s : State sdk) (n : ℕ) (u : ErrCode) :
    step s ⟨.ble (.txComplete n), u⟩ =
      (bufferDequeue (deliver s (.ble (.txComplete n))) u true).2 := rfl

theorem step_disconnected (s : State sdk) (u : ErrCode) :
    step s ⟨.ble .disconnected, u⟩ = whitelistUpdate
      { (bufferDequeue (deliver s (.ble .disconnected)) u false).2 with
        mConnHandle := bleConnHandleInvalid } := rfl

/-- **What an event does to the key path.** -/
inductive KeyEffect (s s' : State sdk) : Event → Prop where
  /-- An event that is not on the key path. -/
  | other {e : Event} : ¬ e.IsKey → KeysSame s s' → KeyEffect s s' e
  /-- A change of the protocol mode. -/
  | mode {e : HidsEvt} : s'.bufferList = s.bufferList → s'.keypadState = s.keypadState →
      s'.reports = s.reports → KeyEffect s s' (.hids e)
  /-- A frame that changes nothing. -/
  | unchanged {b₀ b₁ : UInt8} : combinedState (b₀, b₁) = s.keypadState → KeysSame s s' →
      KeyEffect s s' (.uart (.rxDone b₀ b₁))
  /-- A frame with a new key state: reports of it are handed over, and it may be buffered. -/
  | changed {b₀ b₁ : UInt8} (rs : List Report) : combinedState (b₀, b₁) ≠ s.keypadState →
      s'.keypadState = combinedState (b₀, b₁) → s'.reports = s.reports ++ rs →
      (∀ r ∈ rs, r.data = statePayload (combinedState (b₀, b₁))) →
      (s'.bufferList = s.bufferList ∨
        ∃ k, s'.bufferList = (bufferEnqueue s.bufferList .mHids .keypadState 2 k).2) →
      KeyEffect s s' (.uart (.rxDone b₀ b₁))
  /-- A completed transmission with the buffer empty. -/
  | idle {n : ℕ} : s.bufferList.count = 0 → KeysSame s s' → KeyEffect s s' (.ble (.txComplete n))
  /-- A completed transmission: reports of the head entry are handed over; it stays or goes. -/
  | dequeued {n : ℕ} (rs : List Report) : 0 < s.bufferList.count → s'.keypadState = s.keypadState →
      s'.reports = s.reports ++ rs →
      (∀ r ∈ rs, r = entryReport s (s.bufferList.buffer s.bufferList.rp) r.result) →
      (s'.bufferList = s.bufferList ∨ s'.bufferList = bufferRemove s.bufferList ∨
        ∃ a, s'.bufferList = bufferKeep s.bufferList a) →
      KeyEffect s s' (.ble (.txComplete n))
  /-- A disconnect with the buffer empty. -/
  | flushed : s.bufferList.count = 0 → KeysSame s s' → KeyEffect s s' (.ble .disconnected)
  /-- A disconnect: the head entry goes, and nothing is handed over. -/
  | dropped : 0 < s.bufferList.count → s'.bufferList = bufferRemove s.bufferList →
      s'.keypadState = s.keypadState → s'.reports = s.reports → KeyEffect s s' (.ble .disconnected)

theorem rxDone_keyEffect (s : State sdk) (b₀ b₁ : UInt8) (u : ErrCode) :
    KeyEffect s (step s ⟨.uart (.rxDone b₀ b₁), u⟩) (.uart (.rxDone b₀ b₁)) := by
  by_cases h : combinedState (b₀, b₁) = s.keypadState
  · rw [step_rxDone_of_eq u h]
    exact .unchanged h ⟨rfl, rfl, rfl, rfl⟩
  · rw [step_rxDone_of_ne u h]
    obtain ⟨l, rs, b, es, heq, hb, hrs⟩ := keysSend_handed (changedState s b₀ b₁) u 2 .keypadState
    rw [heq]
    refine .changed rs h rfl rfl ?_ hb
    intro r hr
    rw [hrs r hr]
    rfl

theorem txComplete_keyEffect (s : State sdk) (n : ℕ) (u : ErrCode) :
    KeyEffect s (step s ⟨.ble (.txComplete n), u⟩) (.ble (.txComplete n)) := by
  rw [step_txComplete]
  rcases Nat.eq_zero_or_pos s.bufferList.count with hc | hc
  · rw [bufferDequeue_empty (s := deliver s (.ble (.txComplete n))) u true hc]
    exact .idle hc ⟨rfl, rfl, rfl, rfl⟩
  · obtain ⟨l, rs, b, heq, hb, hrs⟩ :=
      bufferDequeue_handed (deliver s (.ble (.txComplete n))) u true
    rw [heq]
    exact .dequeued rs hc rfl rfl (fun r hr => (hrs r hr).2.2) hb

/-- After its dequeue, a disconnect leaves the key path alone. -/
theorem step_disconnected_keysSame (s : State sdk) (u : ErrCode) :
    KeysSame (bufferDequeue (deliver s (.ble .disconnected)) u false).2
      (step s ⟨.ble .disconnected, u⟩) := by
  rw [step_disconnected]
  obtain ⟨hb, hk, hm, hr⟩ := whitelistUpdate_keysSame
    { (bufferDequeue (deliver s (.ble .disconnected)) u false).2 with
      mConnHandle := bleConnHandleInvalid }
  exact ⟨hb, hk, hm, hr⟩

theorem disconnected_keyEffect (s : State sdk) (u : ErrCode) :
    KeyEffect s (step s ⟨.ble .disconnected, u⟩) (.ble .disconnected) := by
  have hsame := step_disconnected_keysSame s u
  rcases Nat.eq_zero_or_pos s.bufferList.count with hc | hc
  · rw [bufferDequeue_empty (s := deliver s (.ble .disconnected)) u false hc] at hsame
    exact .flushed hc ((deliver_keysSame s (.ble .disconnected)).trans hsame)
  · rw [bufferDequeue_false (s := deliver s (.ble .disconnected)) u hc] at hsame
    exact .dropped hc hsame.bufferList hsame.keypadState hsame.reports

/-- **One event on the key path**, whatever the mode and whatever the link answers. -/
theorem step_keyEffect (s : State sdk) (i : Input) : KeyEffect s (step s i) i.evt := by
  obtain ⟨e, u⟩ := i
  cases e with
  | uart e =>
    cases e with
    | rxDone b₀ b₁ => exact rxDone_keyEffect s b₀ b₁ u
    | error | txDone => exact .other id (step_keysSame id)
  | ble e =>
    cases e with
    | txComplete n => exact txComplete_keyEffect s n u
    | disconnected => exact disconnected_keyEffect s u
    | _ => exact .other id (step_keysSame id)
  | hids e =>
    cases e with
    | bootModeEntered | reportModeEntered => exact .mode rfl rfl rfl
    | _ => exact .other id (step_keysSame id)
  | pm e | adv e | adc e => exact .other id (step_keysSame id)

/-! ### What every slot holds -/

/-- A slot is written. -/
theorem slots_update (P : ℕ → BufferEntry → Prop) {b : BufferList} (h : ∀ j, P j (b.buffer j))
    {i : ℕ} {e : BufferEntry} (he : P i e) : ∀ j, P j (Function.update b.buffer i e j) :=
  (Function.forall_update_iff b.buffer P).mpr ⟨he, fun j _ => h j⟩

/-- After the start-up no slot has been written yet. -/
theorem boot_buffer (link : sdk.Link) (pm : sdk.Pm) (uart : sdk.Uart) (j : ℕ) :
    (boot link pm uart).bufferList.buffer j = ⟨0, 0, .null, .null⟩ := by
  have hinit : ∀ (b : BufferList) (i : ℕ), (∀ j, b.buffer j = ⟨0, 0, .null, .null⟩) →
      ∀ j, (bufferElementInit b i).buffer j = ⟨0, 0, .null, .null⟩ :=
    fun b i h => slots_update (fun _ e => e = ⟨0, 0, .null, .null⟩) h (by rw [h i])
  exact hinit _ 4 (hinit _ 3 (hinit _ 2 (hinit _ 1 (hinit _ 0 fun _ => rfl)))) j

/-- An entry made by `keys_send` for a key change. -/
def BufferEntry.IsKey (e : BufferEntry) : Prop := e.pData = .keypadState ∧ e.dataLen = 2

theorem BufferEntry.IsKey.data {e : BufferEntry} (h : e.IsKey) (s : State sdk) (result : ErrCode) :
    (entryReport s e result).data = statePayload s.keypadState := by
  obtain ⟨hp, hl⟩ := h
  rw [entryReport, hp, hl]
  exact reportData_keypadState s

/-- The offset and the length in every slot, in use or not, are those of a pattern. -/
def SlotsInPattern (b : BufferList) : Prop := ∀ i, (b.buffer i).InPattern

theorem SlotsInPattern.update {b : BufferList} (h : SlotsInPattern b) {i : ℕ} {e : BufferEntry}
    (he : e.InPattern) : SlotsInPattern { b with buffer := Function.update b.buffer i e } :=
  slots_update (fun _ => BufferEntry.InPattern) h he

theorem SlotsInPattern.bufferElementInit {b : BufferList} (h : SlotsInPattern b) (i : ℕ) :
    SlotsInPattern (bufferElementInit b i) :=
  h.update ⟨(h i).offset_le, (h i).len_le⟩

theorem SlotsInPattern.bufferRemove {b : BufferList} (h : SlotsInPattern b) :
    SlotsInPattern (bufferRemove b) := h.bufferElementInit b.rp

theorem SlotsInPattern.bufferKeep {b : BufferList} (h : SlotsInPattern b) {actualLen : ℕ}
    (ha : actualLen ≤ (b.buffer b.rp).dataLen) : SlotsInPattern (bufferKeep b actualLen) :=
  h.update ⟨(Nat.mod_le _ _).trans ha, (h b.rp).len_le⟩

theorem SlotsInPattern.bufferEnqueue {b : BufferList} (h : SlotsInPattern b) (pHids : HidsPtr)
    (p : PatternPtr) {patternLen offset : ℕ} (ho : offset ≤ patternLen) (hl : patternLen ≤ 2) :
    SlotsInPattern (bufferEnqueue b pHids p patternLen offset).2 := by
  unfold SnesController.bufferEnqueue
  split_ifs
  · exact h
  · refine h.update ⟨?_, ?_⟩
    · show u8 offset ≤ u8 patternLen
      rw [u8_of_lt (show offset < 256 by omega), u8_of_lt (show patternLen < 256 by omega)]
      exact ho
    · exact (Nat.mod_le _ _).trans hl

theorem bufferDequeue_slots {s : State sdk} (h : SlotsInPattern s.bufferList) (uninit : ErrCode)
    (txFlag : Bool) : SlotsInPattern (bufferDequeue s uninit txFlag).2.bufferList := by
  obtain ⟨l, rs, hs, -⟩ := send_handed s uninit
    (s.bufferList.buffer s.bufferList.rp).pInstance (s.bufferList.buffer s.bufferList.rp).pData
    (s.bufferList.buffer s.bufferList.rp).dataLen (s.bufferList.buffer s.bufferList.rp).dataOffset
  simp only [bufferDequeue]
  rw [hs]
  split_ifs with hempty htx hkeep
  · exact h
  · exact h.bufferKeep hkeep.2
  · exact h.bufferRemove
  · exact h.bufferRemove

theorem keysSend_slots {s : State sdk} (h : SlotsInPattern s.bufferList) (uninit : ErrCode)
    {len : ℕ} (hlen : len ≤ 2) (p : PatternPtr) :
    SlotsInPattern (keysSend s uninit len p).bufferList := by
  obtain ⟨l, rs, hs, -⟩ := send_handed s uninit .mHids p len 0
  simp only [keysSend]
  rw [hs]
  split_ifs with hheld
  · exact h.bufferEnqueue .mHids p hheld.2 hlen
  · exact h

/-- Every event keeps the slots so, in either mode and whatever `err_code` holds. -/
theorem step_slots {s : State sdk} (h : SlotsInPattern s.bufferList) (i : Input) :
    SlotsInPattern (step s i).bufferList := by
  obtain ⟨e, u⟩ := i
  by_cases hkey : e.IsKey
  swap
  · rw [(step_keysSame hkey).bufferList]
    exact h
  cases e with
  | uart e =>
    cases e with
    | rxDone b₀ b₁ =>
      by_cases hne : combinedState (b₀, b₁) = s.keypadState
      · rw [step_rxDone_of_eq u hne]
        exact h
      · rw [step_rxDone_of_ne u hne]
        exact keysSend_slots (s := changedState s b₀ b₁) h u (Nat.le_refl 2) .keypadState
    | error | txDone => exact hkey.elim
  | ble e =>
    cases e with
    | txComplete n => exact bufferDequeue_slots (s := deliver s (.ble (.txComplete n))) h u true
    | disconnected =>
      rw [(step_disconnected_keysSame s u).bufferList]
      exact bufferDequeue_slots (s := deliver s (.ble .disconnected)) h u false
    | _ => exact hkey.elim
  | hids e => cases e <;> exact h
  | pm e | adv e | adc e => exact hkey.elim

theorem slots_boot (link : sdk.Link) (pm : sdk.Pm) (uart : sdk.Uart) :
    SlotsInPattern (boot link pm uart).bufferList := by
  intro j
  rw [boot_buffer]
  exact ⟨Nat.le_refl 0, Nat.zero_le 2⟩

/-- The slots of every state reached. -/
theorem slots_run (link : sdk.Link) (pm : sdk.Pm) (uart : sdk.Uart) (es : List Input) :
    SlotsInPattern (run step (boot link pm uart) es).bufferList :=
  Along.run_inv (I := fun s : State sdk => SlotsInPattern s.bufferList)
    (fun _ i hI _ => step_slots hI i)
    (along_true _ es) (slots_boot link pm uart)

/-! ### The buffer while it has room -/

/-- An enqueue that leaves no more entries than there are slots keeps the list well formed. -/
theorem BufferList.WF.enqueue {b : BufferList} (h : b.WF) {pHids : HidsPtr} {p : PatternPtr}
    {patternLen offset : ℕ}
    (hfits : (bufferEnqueue b pHids p patternLen offset).2.count ≤ maxBufferEntries) :
    (bufferEnqueue b pHids p patternLen offset).2.WF := by
  rw [bufferEnqueue_eq h.wp_lt h.count_le] at hfits
  unfold BufferList.WF
  rw [ring_bufferEnqueue h]
  exact RingBuffer.WF.push h hfits _

/-- An event that leaves no more entries than there are slots keeps the list well formed. -/
theorem step_wf {s : State sdk} {i : Input} (h : s.bufferList.WF)
    (hfits : (step s i).bufferList.count ≤ maxBufferEntries) : (step s i).bufferList.WF := by
  have heff := step_keyEffect s i
  generalize step s i = s' at heff hfits ⊢
  generalize i.evt = e at heff
  cases heff with
  | other _ hs | unchanged _ hs | idle _ hs | flushed _ hs =>
    rw [hs.bufferList]
    exact h
  | mode hb =>
    rw [hb]
    exact h
  | changed rs _ _ _ _ hb =>
    rcases hb with hb | ⟨k, hb⟩
    · rw [hb]
      exact h
    · rw [hb] at hfits ⊢
      exact h.enqueue hfits
  | dequeued rs hc _ _ _ hb =>
    rcases hb with hb | hb | ⟨a, hb⟩
    · rw [hb]
      exact h
    · rw [hb]
      exact (queue_bufferRemove h hc).1
    · rw [hb]
      exact RingBuffer.WF.setHead h _
  | dropped hc hb =>
    rw [hb]
    exact (queue_bufferRemove h hc).1

end SnesController
