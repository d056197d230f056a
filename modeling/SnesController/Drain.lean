import SnesController.Copies
import SnesController.Current
import SnesController.Delivery
import SnesController.Stall
import SnesController.Library.Ranking

/-!
# The buffer drains

Every completed transmission retires notifications, so the stack has room again, and the handler
dequeues one entry: at least one more copy goes out. So a burst of key changes settles
(`drains`): after as many completed transmissions as copies are still owed the buffer is empty, and,
once a frame has shown any button pressed, the last report the link took shows the keypad as it is.
All this is of an uninterrupted connection in report mode on which at most five entries are held
from the start-up on (`Uninterrupted`). With a sixth, the entry in its slot is lost, and what is
sent last is whatever lies at the null pointer.

The firmware and the stack are in this together. `LinkLaws` says that a completed transmission is
still to come while the buffer holds an entry, and `RoomLaws` that there is room after one.
-/

namespace SnesController

open RingBuffer EventRun

variable {sdk : Sdk} {outstanding : sdk.Link → ℕ} {capacity : ℕ}

/-! ### The link's state -/

section Closed

variable {P : sdk.Link → Prop}

/-- What every call of the link keeps, a transmission keeps. -/
theorem sendLoop_closed (hP : ∀ l c, P l → P (sdk.linkCall l c).2) (n : ℕ) {s : State sdk}
    (h : P s.link) (errCode : ErrCode) (pHids : HidsPtr) (p : PatternPtr) (dataLen offset : ℕ) :
    P (sendLoop n s errCode pHids p dataLen offset).state.link := by
  induction n generalizing s errCode offset with
  | zero => exact h
  | succ n ih =>
    have hpass : P (sendPass s errCode pHids p dataLen).2.link := by
      cases hmode : s.mInBootMode with
      | true =>
        rw [sendPass, hmode]
        exact h
      | false =>
        rw [sendPass_reportMode hmode]
        exact hP _ _ h
    simp only [sendLoop]
    split_ifs
    · exact hpass
    · exact ih hpass _ _
    · exact hpass

theorem keysSend_closed (hP : ∀ l c, P l → P (sdk.linkCall l c).2) {s : State sdk} (h : P s.link)
    (uninit : ErrCode) (len : ℕ) (p : PatternPtr) : P (keysSend s uninit len p).link := by
  rw [link_keysSend]
  exact sendLoop_closed hP _ h uninit .mHids p len 0

theorem bufferDequeue_closed (hP : ∀ l c, P l → P (sdk.linkCall l c).2) {s : State sdk}
    (h : P s.link) (uninit : ErrCode) (txFlag : Bool) :
    P (bufferDequeue s uninit txFlag).2.link := by
  rcases Nat.eq_zero_or_pos s.bufferList.count with hc | hc
  · rw [bufferDequeue_empty uninit txFlag hc]
    exact h
  cases txFlag with
  | false =>
    rw [bufferDequeue_false uninit hc]
    exact h
  | true =>
    rw [link_bufferDequeue uninit hc]
    exact sendLoop_closed hP _ h uninit _ _ _ _

/-- **What every call of the link keeps, the handler of every event keeps.** -/
theorem handle_closed (hP : ∀ l c, P l → P (sdk.linkCall l c).2) {s : State sdk} (h : P s.link)
    (uninit : ErrCode) (e : Event) : P (handle s uninit e).link := by
  cases e with
  | uart e =>
    cases e with
    | rxDone b₀ b₁ =>
      simp only [handle, uartEventHandler, keypadChanged]
      split_ifs
      · exact keysSend_closed hP (s := { s with keypadState := combinedState s.rxBuffer }) h
          uninit 2 .keypadState
      · exact h
    | error | txDone => exact h
  | ble e =>
    cases e with
    | txComplete n => exact bufferDequeue_closed hP h uninit true
    | disconnected =>
      obtain ⟨pm, wc, es, heq⟩ := whitelistUpdate_frame
        { (bufferDequeue s uninit false).2 with mConnHandle := bleConnHandleInvalid }
      simp only [handle, onBleEvt]
      rw [heq]
      exact bufferDequeue_closed hP h uninit false
    | rwAuthorizeRequest c type op =>
      simp only [handle, onBleEvt]
      split_ifs
      · exact hP _ _ h
      · exact hP _ _ h
      · exact h
    | connected | other => exact h
    | gattcTimeout | gattsTimeout | userMemRequest => exact hP _ _ h
  | hids e => cases e <;> exact h
  | pm e =>
    cases e with
    | connSecSucceeded p procedure =>
      simp only [handle, pmEvtHandler, whitelistAppend]
      split_ifs <;> exact h
    | connSecFailed c missing => cases missing <;> exact h
    | peersDeleteSucceeded => exact hP _ _ h
    | _ => exact h
  | adv e =>
    cases e with
    | peerAddrRequest =>
      simp only [handle, onAdvEvt]
      split_ifs
      · exact hP _ _ h
      · exact h
      · exact h
    | idle | whitelistRequest => exact hP _ _ h
    | _ => exact h
  | adc e =>
    cases e with
    | done samples => exact hP _ _ (hP _ _ h)
    | other => exact hP _ _ h

end Closed

/-! ### Room for a report -/

/-- **The stack's TX buffers**, `capacity` of them: a report is taken while one is free, no call
makes more than that outstanding, and no event makes more outstanding; a completed transmission
retires at least one notification of those it counts. -/
structure RoomLaws (sdk : Sdk) (outstanding : sdk.Link → ℕ) (capacity : ℕ) : Prop where
  room : ∀ l p i n d, outstanding l < capacity →
    (sdk.linkCall l (.bleHidsInpRepSend p i n d)).1 = .success
  calls : ∀ l c, outstanding l ≤ capacity → outstanding (sdk.linkCall l c).2 ≤ capacity
  events : ∀ l e, outstanding (sdk.linkDeliver l e) ≤ outstanding l
  completes : ∀ l n, 0 < n → 1 ≤ outstanding l →
    outstanding (sdk.linkDeliver l (.ble (.txComplete n))) < outstanding l

theorem RoomLaws.step (laws : RoomLaws sdk outstanding capacity) {s : State sdk}
    (h : outstanding s.link ≤ capacity) (i : Input) :
    outstanding (SnesController.step s i).link ≤ capacity :=
  handle_closed (P := fun l => outstanding l ≤ capacity) laws.calls (s := deliver s i.evt)
    ((laws.events s.link i.evt).trans h) i.uninit i.evt

/-! ### Copies owed -/

/-- The copies the entries held are still owed. -/
def owed (s : State sdk) : ℕ := (s.bufferList.queue.map BufferEntry.owed).sum

/-- Whether a transmission is completed. -/
def Event.completes : Event → Bool
  | .ble (.txComplete _) => true
  | _ => false

theorem owed_stateEntry (k : ℕ) : (stateEntry k).owed = 2 - k + 1 := rfl

theorem count_eq_zero_of_owed {s : State sdk} (h : owed s = 0) : s.bufferList.count = 0 := by
  cases hq : s.bufferList.queue with
  | nil => exact count_eq_zero_of_queue hq
  | cons e q =>
    rw [owed, hq, List.map_cons, List.sum_cons, BufferEntry.owed] at h
    omega

/-! ### One event -/

/-- The first report of a transmission in report mode is answered by the link as it is. -/
theorem sendLoop_first (n : ℕ) {s : State sdk} (hmode : s.mInBootMode = false) (errCode : ErrCode)
    (pHids : HidsPtr) (p : PatternPtr) (dataLen offset : ℕ) :
    ∃ rs, (sendLoop (n + 1) s errCode pHids p dataLen offset).state.reports =
      s.reports ++ keyReport s pHids p dataLen (firstAnswer s pHids p dataLen) :: rs := by
  unfold sendLoop
  rw [sendPass_reportMode hmode]
  dsimp only
  split_ifs
  · exact ⟨[], rfl⟩
  · obtain ⟨l, rs, heq, -⟩ := sendLoop_handed n (s.handed _ [keyReport s pHids p dataLen
      (firstAnswer s pHids p dataLen)]) (firstAnswer s pHids p dataLen) pHids p dataLen
      (u16 (offset + 1))
    refine ⟨rs, ?_⟩
    rw [heq]
    exact List.append_assoc _ _ _
  · exact ⟨[], rfl⟩

theorem reports_bufferDequeue {s : State sdk} (uninit : ErrCode) (hc : 0 < s.bufferList.count) :
    (bufferDequeue s uninit true).2.reports =
      (sendKeyScanPressRelease s uninit (s.bufferList.buffer s.bufferList.rp).pInstance
        (s.bufferList.buffer s.bufferList.rp).pData (s.bufferList.buffer s.bufferList.rp).dataLen
        (s.bufferList.buffer s.bufferList.rp).dataOffset).state.reports := by
  unfold bufferDequeue
  rw [if_neg (by rw [bufferListEmpty_iff]; omega), if_pos rfl]
  dsimp only
  split_ifs <;> rfl

/-- After a completed transmission that leaves room, the first copy is taken. -/
theorem RoomLaws.first_taken (laws : RoomLaws sdk outstanding capacity) {s : State sdk}
    (hmode : s.mInBootMode = false) (hc : 0 < s.bufferList.count)
    (hout : 1 ≤ outstanding s.link) (hcap : outstanding s.link ≤ capacity) {n : ℕ} (hn : 0 < n)
    (u : ErrCode) :
    ∃ r rs, (SnesController.step s ⟨.ble (.txComplete n), u⟩).reports = s.reports ++ r :: rs ∧
      r.result = .success := by
  have hroom : outstanding (deliver s (.ble (.txComplete n))).link < capacity :=
    (laws.completes s.link n hn hout).trans_le hcap
  obtain ⟨rs, hrs⟩ := sendLoop_first ((s.bufferList.buffer s.bufferList.rp).dataLen + 1)
    (s := deliver s (.ble (.txComplete n))) hmode u
    (s.bufferList.buffer s.bufferList.rp).pInstance (s.bufferList.buffer s.bufferList.rp).pData
    (s.bufferList.buffer s.bufferList.rp).dataLen (s.bufferList.buffer s.bufferList.rp).dataOffset
  exact ⟨_, rs, (reports_bufferDequeue (s := deliver s _) u hc).trans hrs,
    laws.room _ _ _ _ _ hroom⟩

/-- **The key path at rest**: an event that makes no key change, and completes transmissions of at
least one notification if it completes any. -/
structure Quiet (s : State sdk) (i : Input) : Prop where
  unchanged : ∀ v ∈ frameOf i.evt, v = s.keypadState
  completes : ∀ n, i.evt = .ble (.txComplete n) → 0 < n

/-- What the proofs carry: something is outstanding while an entry waits, and no more than there are
TX buffers. -/
structure DrainInv (outstanding : sdk.Link → ℕ) (capacity : ℕ) (s : State sdk) : Prop where
  keys : KeyInv s
  drains : Drains outstanding s
  cap : outstanding s.link ≤ capacity

theorem DrainInv.step (laws : LinkLaws sdk outstanding) (room : RoomLaws sdk outstanding capacity)
    {s : State sdk} {i : Input} (h : DrainInv outstanding capacity s) (hA : Uninterrupted s i) :
    DrainInv outstanding capacity (SnesController.step s i) :=
  ⟨h.keys.step hA, h.drains.step laws hA.connected hA.reportMode, room.step h.cap i⟩

/-- **A completed transmission wears off what is owed**, and nothing adds to it at rest. -/
theorem DrainInv.wears (room : RoomLaws sdk outstanding capacity) {s : State sdk} {i : Input}
    (h : DrainInv outstanding capacity s) (hA : Uninterrupted s i) (hquiet : Quiet s i) :
    Wears SnesController.step owed (·.evt.completes) s i := by
  obtain ⟨hchange, hcompletes⟩ := hquiet
  have hstep := step_keyStep h.keys hA
  have htaken : ∀ n, i.evt = .ble (.txComplete n) → 0 < s.bufferList.count →
      ∃ r rs, (SnesController.step s i).reports = s.reports ++ r :: rs ∧ r.result = .success := by
    rintro n hi hc
    obtain ⟨e, u⟩ := i
    dsimp only at hi
    subst hi
    exact room.first_taken h.keys.mode hc
      (h.drains.outstanding_of_buffered (Nat.ne_of_gt hc)) h.cap (hcompletes n rfl) u
  show owed (SnesController.step s i) ≤ owed s - i.evt.completes.toNat
  generalize SnesController.step s i = s' at hstep htaken ⊢
  generalize i.evt = e at hstep hchange htaken ⊢
  cases hstep with
  | idle _ hempty hsame =>
    have howed : owed s' = owed s := by rw [owed, hsame.bufferList]; rfl
    cases e with
    | ble e =>
      cases e with
      | txComplete n =>
        have hzero : owed s = 0 := by rw [owed, hempty n rfl]; rfl
        rw [howed, hzero]
        exact Nat.zero_le _
      | _ => exact howed.le
    | _ => exact howed.le
  | sent hne | held k hne => exact absurd (hchange _ rfl) hne
  | drained k q hq hk _ hb _ =>
    have hqueue := (queue_bufferRemove h.keys.wf (count_pos_of_queue hq)).2
    rw [← hb, hq, List.tail_cons] at hqueue
    rw [owed, owed, hqueue, hq, List.map_cons, List.sum_cons, owed_stateEntry]
    show _ ≤ _ - 1
    omega
  | kept k j q hq hk _ hb hr =>
    have hj : 0 < j := by
      obtain ⟨r, rs, hfirst, hsuccess⟩ := htaken _ rfl (count_pos_of_queue hq)
      rw [hr] at hfirst
      have hcons := List.append_cancel_left hfirst
      rcases Nat.eq_zero_or_pos j with rfl | hj
      · rw [List.replicate_zero, List.nil_append] at hcons
        rw [← (List.cons.inj hcons).1] at hsuccess
        cases hsuccess
      · exact hj
    have hqueue := (queue_bufferKeep h.keys.wf (count_pos_of_queue hq) (by omega : k + j < 256)).2
    rw [← hb, hq, List.tail_cons, head_of_queue h.keys.wf hq] at hqueue
    rw [owed, owed, hqueue, hq, List.map_cons, List.sum_cons, List.map_cons, List.sum_cons,
      owed_stateEntry]
    show 2 - (k + j) + 1 + _ ≤ _ - 1
    omega

/-! ### Runs -/

/-- What is asked of the events at rest, with `v` the key state: every frame repeats it, and a
completed transmission is of at least one notification. -/
def AtRest (v : UInt16) (e : Event) : Prop :=
  (∀ w ∈ frameOf e, w = v) ∧ ∀ n, e = .ble (.txComplete n) → 0 < n

theorem DrainInv.boot (room : RoomLaws sdk outstanding capacity) {link : sdk.Link}
    (hstart : outstanding link ≤ capacity) (pm : sdk.Pm) (uart : sdk.Uart) :
    DrainInv outstanding capacity (SnesController.boot link pm uart) :=
  ⟨keyInv_boot link pm uart, ⟨rfl, fun hc => absurd rfl hc⟩, room.calls link _ hstart⟩

/-- A run at rest wears off what is owed, and keeps the key state. -/
theorem DrainInv.rest (laws : LinkLaws sdk outstanding) (room : RoomLaws sdk outstanding capacity)
    {s : State sdk} {es : List Input} (h : DrainInv outstanding capacity s)
    (hA : Along SnesController.step Uninterrupted s es)
    (hrest : ∀ i ∈ es, AtRest s.keypadState i.evt) :
    Along SnesController.step (Wears SnesController.step owed (·.evt.completes)) s es ∧
      (run SnesController.step s es).keypadState = s.keypadState := by
  have hboth : Along SnesController.step
      (fun t i => Uninterrupted t i ∧ AtRest s.keypadState i.evt) s es :=
    along_and.mpr ⟨hA, along_inputs.mpr hrest⟩
  have hinv : ∀ t i, DrainInv outstanding capacity t ∧ t.keypadState = s.keypadState →
      Uninterrupted t i ∧ AtRest s.keypadState i.evt →
      DrainInv outstanding capacity (SnesController.step t i) ∧
        (SnesController.step t i).keypadState = s.keypadState := by
    rintro t i ⟨ht, hstate⟩ ⟨hi, hframe, -⟩
    refine ⟨ht.step laws room hi, ?_⟩
    rw [step_keypadState, hstate]
    cases hf : frameOf i.evt with
    | none => rfl
    | some w => exact hframe w hf
  refine ⟨Along.of_inv hinv ?_ hboth ⟨h, rfl⟩, (Along.run_inv hinv hboth ⟨h, rfl⟩).2⟩
  rintro t i ⟨ht, hstate⟩ ⟨hi, hframe, hcompletes⟩
  exact ht.wears room hi ⟨fun v hv => (hframe v hv).trans hstate.symm, hcompletes⟩

/-- **The buffer drains, and the central sees the keypad as it is**: on an uninterrupted connection
in report mode on which at most five entries are held from the start-up on, over a stack that
answers and keeps count as its laws say, once no frame changes the key state any more and as many
transmissions are completed as copies were owed when that began, the buffer is empty. Where some
frame was not zero, the last report the link took shows the key state. -/
theorem drains (laws : LinkLaws sdk outstanding) (room : RoomLaws sdk outstanding capacity)
    (link : sdk.Link) (pm : sdk.Pm) (uart : sdk.Uart) (hstart : outstanding link ≤ capacity)
    {es₀ es : List Input}
    (hA : Along step Uninterrupted (boot link pm uart) (es₀ ++ es))
    (hrest : ∀ i ∈ es, AtRest (currentState es₀) i.evt)
    (hmany : owed (run step (boot link pm uart) es₀) ≤ es.countP (·.evt.completes)) :
    (run step (boot link pm uart) (es₀ ++ es)).bufferList.count = 0 ∧
      ((∃ v ∈ frames es₀, v ≠ 0) →
        (acceptedData (run step (boot link pm uart) (es₀ ++ es)).reports).getLast? =
          some (statePayload (currentState es₀))) := by
  obtain ⟨hA₀, hA₁⟩ := along_append.mp hA
  have hstate := run_keypadState link pm uart es₀
  have hinv : DrainInv outstanding capacity (run step (boot link pm uart) es₀) :=
    Along.run_inv (fun t i ht hi => ht.step laws room hi) hA₀ (DrainInv.boot room hstart pm uart)
  rw [← hstate] at hrest ⊢
  obtain ⟨hwears, hkept⟩ := hinv.rest laws room hA₁ hrest
  have hempty : (run step (boot link pm uart) (es₀ ++ es)).bufferList.count = 0 := by
    rw [run_append]
    exact count_eq_zero_of_owed (worn_out hwears hmany)
  refine ⟨hempty, ?_⟩
  rintro ⟨v, hv, hv0⟩
  -- with nothing waiting, the ledger's last report is that of the key state
  have hshown := watched_inv lastShown_start (fun _ _ _ _ => LastShown.step) hA
  have hchanges : (ledger (watched link pm uart (es₀ ++ es))).changes ≠ 0 := by
    intro hc
    refine hv0 (hshown.unchanged hc v ?_)
    rw [show (ledger (watched link pm uart (es₀ ++ es))).frames = frames (es₀ ++ es) from
      watched_frames link pm uart (es₀ ++ es), frames, List.filterMap_append]
    exact List.mem_append_left _ hv
  have hlast := hshown.shown (waiting_eq_nil_iff.mpr (by rw [watched_fst]; exact hempty)) hchanges
  rw [accepted_watched] at hlast
  rw [hlast, ← hkept, ← run_append]
  show some (statePayload (watched link pm uart (es₀ ++ es)).1.keypadState) = _
  rw [watched_fst]

/-! ### On an SDK -/

/-- A notification takes a TX buffer only where there is one. -/
theorem device_notify_le {txBuffers outstanding : ℕ} (h : outstanding ≤ txBuffers) :
    (if outstanding < txBuffers then (ErrCode.success, outstanding + 1)
      else (.noTxPackets, outstanding)).2 ≤ txBuffers := by
  split_ifs with hlt
  · exact hlt
  · exact h

theorem device_roomLaws (txBuffers : ℕ) :
    RoomLaws (device txBuffers) (deviceOutstanding txBuffers) txBuffers where
  room l p i n d h := by
    simp only [device]
    exact congrArg Prod.fst (if_pos h)
  calls l c h := by
    cases c with
    | bleHidsInpRepSend p i n d => exact device_notify_le h
    | bleBasBatteryLevelUpdate v => exact device_notify_le h
    | _ => exact h
  events l e := by
    cases e with
    | ble e =>
      cases e with
      | txComplete n => exact Nat.sub_le l n
      | disconnected => exact Nat.zero_le l
      | _ => exact Nat.le_refl l
    | _ => exact Nat.le_refl l
  completes l n hn hl := Nat.sub_lt hl hn

/-- A change over one TX buffer, two copies of which are owed, and two completions. -/
theorem drains_oneChange :
    (run step (deviceBoot 1) ([frame 0 1] ++ [txComplete 1, txComplete 1])).bufferList.count = 0 ∧
      (acceptedData (run step (deviceBoot 1)
        ([frame 0 1] ++ [txComplete 1, txComplete 1])).reports).getLast? =
          some (statePayload (currentState [frame 0 1])) := by
  have hA : Along step Uninterrupted (deviceBoot 1) ([frame 0 1] ++ [txComplete 1, txComplete 1]) :=
    by decide
  have hrest : ∀ i ∈ [txComplete 1, txComplete 1], AtRest (currentState [frame 0 1]) i.evt := by
    simp [AtRest, txComplete, frameOf, received]
  obtain ⟨hempty, hlast⟩ := drains (device_linkLaws Nat.one_pos) (device_roomLaws 1) (deviceLink 1)
    (devicePm 1) (deviceUart 1) (Nat.zero_le 1) hA hrest (by decide)
  exact ⟨hempty, hlast (by decide)⟩

end SnesController
