import SnesController.Bounds
import SnesController.History
import SnesController.Indeterminate

/-!
# Reports are up to date

An entry of the key buffer points to `keypad_state`, so what is transmitted late is transmitted as
the key state of the moment. Nothing old ever goes out: in every run, across disconnects, in either
mode and with the buffer overfull, a report handed to the link shows the state of the most recent
frame, unless it is transmitted through a null pointer (`reports_current`).

`sentBy_ne_nil_iff` says exactly when an event hands anything over. The protocol mode is that of the
last event that set it, whichever connection that was on (`run_mode`): a central that leaves in boot
mode leaves the controller silent for the next one.
-/

namespace SnesController

open RingBuffer EventRun

variable {sdk : Sdk}

/-- The key state of the most recent frame, and 0 before the first. -/
def currentState (es : List Input) : UInt16 := (frames es).getLast?.getD 0

theorem currentState_concat (es : List Input) (i : Input) :
    currentState (es ++ [i]) = (frameOf i.evt).getD (currentState es) := by
  unfold currentState frames
  rw [List.filterMap_append]
  cases h : frameOf i.evt with
  | none => simp [h]
  | some v => simp [h]

/-- Whether boot mode is on after an event, from whether it was on before. -/
def modeAfter (mode : Bool) : Event → Bool
  | .hids .bootModeEntered => true
  | .hids .reportModeEntered => false
  | _ => mode

/-- Whether the last event that set the protocol mode set boot mode. -/
def bootMode (es : List Input) : Bool := es.foldl (fun mode i => modeAfter mode i.evt) false

theorem bootMode_concat (es : List Input) (i : Input) :
    bootMode (es ++ [i]) = modeAfter (bootMode es) i.evt :=
  List.foldl_concat _ _ _ _

/-! ### What the state follows -/

/-- A frame sets `keypad_state`, whether it changes it or not, and nothing else does. -/
theorem step_keypadState (s : State sdk) (i : Input) :
    (step s i).keypadState = (frameOf i.evt).getD s.keypadState := by
  have heff := step_keyEffect s i
  generalize step s i = s' at heff ⊢
  generalize i.evt = e at heff ⊢
  cases heff with
  | other hkey hs =>
    rw [hs.keypadState]
    cases hframe : frameOf e with
    | none => rfl
    | some v =>
      obtain ⟨b₀, b₁, rfl, -⟩ := frameOf_eq_some hframe
      exact absurd trivial hkey
  | mode _ hk => exact hk
  | unchanged heq hs => exact hs.keypadState.trans heq.symm
  | changed _ _ hk => exact hk
  | idle _ hs | flushed _ hs => exact hs.keypadState
  | dequeued _ _ hk => exact hk
  | dropped _ _ hk => exact hk

theorem run_keypadState (link : sdk.Link) (pm : sdk.Pm) (uart : sdk.Uart) (es : List Input) :
    (run step (boot link pm uart) es).keypadState = currentState es := by
  induction es using List.reverseRecOn with
  | nil => rfl
  | append_singleton es i ih => rw [run_concat, step_keypadState, currentState_concat, ih]

theorem step_mInBootMode (s : State sdk) (i : Input) :
    (step s i).mInBootMode = modeAfter s.mInBootMode i.evt := by
  obtain ⟨e, u⟩ := i
  cases e with
  | hids e => cases e <;> rfl
  | _ => exact (step_handled s ⟨_, u⟩).mode_eq (by simp)

/-- **The protocol mode** of every run is that of the last event that set it. -/
theorem run_mode (link : sdk.Link) (pm : sdk.Pm) (uart : sdk.Uart) (es : List Input) :
    (run step (boot link pm uart) es).mInBootMode = bootMode es := by
  induction es using List.reverseRecOn with
  | nil => rfl
  | append_singleton es i ih => rw [run_concat, step_mInBootMode, bootMode_concat, ih]

/-! ### What the slots point to -/

/-- Every slot, in use or not, holds a key change's entry, or points to nothing. -/
def SlotsPoint (b : BufferList) : Prop := ∀ j, (b.buffer j).pData = .null ∨ (b.buffer j).IsKey

theorem SlotsPoint.update {b : BufferList} (h : SlotsPoint b) {i : ℕ} {e : BufferEntry}
    (he : e.pData = .null ∨ e.IsKey) :
    SlotsPoint { b with buffer := Function.update b.buffer i e } :=
  slots_update (fun _ e => e.pData = .null ∨ e.IsKey) h he

theorem SlotsPoint.bufferElementInit {b : BufferList} (h : SlotsPoint b) (i : ℕ) :
    SlotsPoint (bufferElementInit b i) := h.update (.inl rfl)

theorem SlotsPoint.enqueue {b : BufferList} (h : SlotsPoint b) (k : ℕ) :
    SlotsPoint (bufferEnqueue b .mHids .keypadState 2 k).2 := by
  unfold bufferEnqueue
  split_ifs
  · exact h
  · exact h.update (.inr ⟨rfl, rfl⟩)

theorem SlotsPoint.step {s : State sdk} (h : SlotsPoint s.bufferList) (i : Input) :
    SlotsPoint (SnesController.step s i).bufferList := by
  have heff := step_keyEffect s i
  generalize SnesController.step s i = s' at heff ⊢
  generalize i.evt = e at heff
  cases heff with
  | other _ hs | unchanged _ hs | idle _ hs | flushed _ hs =>
    rw [hs.bufferList]
    exact h
  | mode hb =>
    rw [hb]
    exact h
  | changed _ _ _ _ _ hb =>
    rcases hb with hb | ⟨k, hb⟩
    · rw [hb]
      exact h
    · rw [hb]
      exact h.enqueue k
  | dequeued _ _ _ _ _ hb =>
    rcases hb with hb | hb | ⟨a, hb⟩
    · rw [hb]
      exact h
    · rw [hb]
      exact h.bufferElementInit _
    · rw [hb]
      exact h.update (h s.bufferList.rp)
  | dropped _ hb =>
    rw [hb]
    exact h.bufferElementInit _

theorem slotsPoint_boot (link : sdk.Link) (pm : sdk.Pm) (uart : sdk.Uart) :
    SlotsPoint (boot link pm uart).bufferList := by
  intro j
  rw [boot_buffer]
  exact .inl rfl

theorem slotsPoint_run (link : sdk.Link) (pm : sdk.Pm) (uart : sdk.Uart) (es : List Input) :
    SlotsPoint (run step (boot link pm uart) es).bufferList :=
  Along.run_inv (I := fun s : State sdk => SlotsPoint s.bufferList)
    (fun _ i h _ => h.step i) (along_true _ es) (slotsPoint_boot link pm uart)

/-! ### What is handed over, and when -/

/-- **Nothing old is handed over**: in every run, a report handed to the link for an event shows the
key state of the most recent frame, that event included, unless it is transmitted from an entry
whose pointer is null. -/
theorem reports_current (link : sdk.Link) (pm : sdk.Pm) (uart : sdk.Uart) (es : List Input)
    (i : Input) :
    ∀ r ∈ sentBy (run step (boot link pm uart) es) i,
      r.data = statePayload (currentState (es ++ [i])) ∨
        (∃ n, i.evt = .ble (.txComplete n)) ∧
          ((run step (boot link pm uart) es).bufferList.buffer
            (run step (boot link pm uart) es).bufferList.rp).pData = .null := by
  have hpoint := slotsPoint_run link pm uart es
  have hstate := run_keypadState link pm uart es
  rw [currentState_concat, ← hstate]
  generalize run step (boot link pm uart) es = s at hpoint hstate ⊢
  have heff := step_keyEffect s i
  have hnone : (step s i).reports = s.reports → sentBy s i = [] := fun h =>
    sentBy_eq (h.trans (List.append_nil _).symm)
  intro r hr
  generalize hs' : step s i = s' at heff
  rw [hs'] at hnone
  have hsome : ∀ rs, s'.reports = s.reports ++ rs → r ∈ rs := by
    intro rs h
    rw [← hs'] at h
    rwa [sentBy_eq h] at hr
  generalize i.evt = e at heff ⊢
  cases heff with
  | other _ hs | unchanged _ hs | idle _ hs | flushed _ hs =>
    rw [hnone hs.reports] at hr
    cases hr
  | mode _ _ hrep | dropped _ _ _ hrep =>
    rw [hnone hrep] at hr
    cases hr
  | changed rs _ _ hrep hdata => exact .inl (hdata r (hsome rs hrep))
  | dequeued rs _ _ hrep hrs =>
    rcases hpoint s.bufferList.rp with hnull | hkey
    · exact .inr ⟨⟨_, rfl⟩, hnull⟩
    · refine .inl ?_
      rw [hrs r (hsome rs hrep)]
      exact hkey.data s r.result

/-- The first copy of the first change of a run, over one TX buffer. -/
theorem reports_current_firstCopy :
    [0x01, 0x00, 0x00, 0x00] = statePayload (currentState ([] ++ [frame 0 1])) ∨
      (∃ n, (frame 0 1).evt = .ble (.txComplete n)) ∧
        ((run step (deviceBoot 1) []).bufferList.buffer
          (run step (deviceBoot 1) []).bufferList.rp).pData = .null :=
  reports_current (deviceLink 1) (devicePm 1) (deviceUart 1) [] (frame 0 1)
    ⟨.mHids, 0, 4, [0x01, 0x00, 0x00, 0x00], .success⟩ (by decide)

/-- **An event transmits**: outside boot mode, a frame that changes the key state, or a completed
transmission while an entry waits. -/
def TransmitsFor (es : List Input) (count : ℕ) (e : Event) : Prop :=
  bootMode es = false ∧
    ((∃ v, frameOf e = some v ∧ v ≠ currentState es) ∨
      (∃ n, e = .ble (.txComplete n)) ∧ count ≠ 0)

/-- Outside boot mode a changed frame is tried at once. -/
theorem rxDone_sentBy_ne_nil {s : State sdk} (hmode : s.mInBootMode = false) {b₀ b₁ : UInt8}
    (u : ErrCode) (hne : combinedState (b₀, b₁) ≠ s.keypadState) :
    sentBy s ⟨.uart (.rxDone b₀ b₁), u⟩ ≠ [] := by
  have hsent := keysSend_cases (s := changedState s b₀ b₁) u .keypadState hmode
    (by omega : 2 + 1 < 65536)
  rw [sentBy, step_rxDone_of_ne u hne]
  generalize keysSend (changedState s b₀ b₁) u 2 .keypadState = t at hsent
  have hdrop : ∀ rs : List Report, (s.reports ++ rs).drop s.reports.length = rs := fun _ =>
    List.drop_left
  cases hsent with
  | sent l _ => exact (hdrop _).trans_ne (by simp)
  | held l k _ _ => exact (hdrop _).trans_ne (by simp)
  | failed l k err es' _ _ _ => exact (hdrop _).trans_ne (by simp)

/-- In boot mode nothing is. -/
theorem sentBy_bootMode {s : State sdk} (hslots : SlotsInPattern s.bufferList)
    (hmode : s.mInBootMode = true) (i : Input) : sentBy s i = [] := by
  refine sentBy_eq (i := i) (Eq.trans ?_ (List.append_nil _).symm)
  have heff := step_keyEffect s i
  obtain ⟨e, u⟩ := i
  dsimp only at heff
  cases heff with
  | other _ hs | unchanged _ hs | idle _ hs | flushed _ hs => exact hs.reports
  | mode _ _ hrep | dropped _ _ _ hrep => exact hrep
  | changed rs hne =>
    rw [step_rxDone_of_ne u hne, keysSend_bootMode (s := changedState s _ _) u .keypadState hmode
      (by omega)]
    split_ifs <;> rfl
  | dequeued rs hc =>
    rw [step_txComplete, bufferDequeue_bootMode (s := deliver s _) u hmode hc rfl
      (hslots s.bufferList.rp)]
    rfl

/-- **When an event hands a report over**, in every run. -/
theorem sentBy_ne_nil_iff (link : sdk.Link) (pm : sdk.Pm) (uart : sdk.Uart) (es : List Input)
    (i : Input) :
    sentBy (run step (boot link pm uart) es) i ≠ [] ↔
      TransmitsFor es (run step (boot link pm uart) es).bufferList.count i.evt := by
  have hslots := slots_run link pm uart es
  have hstate := run_keypadState link pm uart es
  have hmode := run_mode link pm uart es
  unfold TransmitsFor
  rw [← hstate, ← hmode]
  generalize run step (boot link pm uart) es = s at hslots hstate hmode ⊢
  cases hboot : s.mInBootMode with
  | true => simp [sentBy_bootMode hslots hboot]
  | false =>
    obtain ⟨e, u⟩ := i
    have heff := step_keyEffect s ⟨e, u⟩
    dsimp only at heff ⊢
    have hnone : (step s ⟨e, u⟩).reports = s.reports → sentBy s ⟨e, u⟩ = [] := fun h =>
      sentBy_eq (h.trans (List.append_nil _).symm)
    simp only [true_and]
    cases heff with
    | other hkey hs =>
      refine iff_of_false (not_not_intro (hnone hs.reports)) ?_
      rintro (⟨v, hv, -⟩ | ⟨⟨n, rfl⟩, -⟩)
      · obtain ⟨b₀, b₁, rfl, -⟩ := frameOf_eq_some hv
        exact hkey trivial
      · exact hkey trivial
    | mode _ _ hrep =>
      exact iff_of_false (not_not_intro (hnone hrep)) (by simp [frameOf, received])
    | unchanged heq hs =>
      exact iff_of_false (not_not_intro (hnone hs.reports)) (by simp [frameOf, received, heq])
    | changed rs hne =>
      exact iff_of_true (rxDone_sentBy_ne_nil hboot u hne) (.inl ⟨_, rfl, hne⟩)
    | idle hc hs =>
      exact iff_of_false (not_not_intro (hnone hs.reports)) (by simp [frameOf, received, hc])
    | @dequeued n rs hc _ hrep =>
      obtain ⟨rs', hr, hne, -⟩ := (bufferDequeue_true (s := deliver s (.ble (.txComplete n))) u
        hboot hc rfl (hslots s.bufferList.rp)).reports
      refine iff_of_true ?_ (.inr ⟨⟨n, rfl⟩, Nat.ne_of_gt hc⟩)
      rw [sentBy_eq (i := ⟨.ble (.txComplete n), u⟩) hr]
      exact hne
    | flushed _ hs =>
      exact iff_of_false (not_not_intro (hnone hs.reports)) (by simp [frameOf, received])
    | dropped _ _ _ hrep =>
      exact iff_of_false (not_not_intro (hnone hrep)) (by simp [frameOf, received])

end SnesController
