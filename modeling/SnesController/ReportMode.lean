import SnesController.KeyPath

/-!
# Key changes in report mode

A connection in report mode, not interrupted, over a link that takes a report or has no room
for it, with no more entries buffered than there are slots. Every entry is then a key change
waiting for the rest of its three copies, and an event does one of five things to the key
path (`step_keyStep`): nothing, a change sent outright, a change held back, a held change
sent to the end, or sent in part.
-/

namespace SnesController

open RingBuffer EventRun

variable {sdk : Sdk}

/-- The report a key state is sent as. -/
def stateReport (v : UInt16) (result : ErrCode) : Report :=
  ⟨.mHids, joystickInputReportKeysIndex, joystickInputReportKeysMaxLen, statePayload v, result⟩

/-- The entry of a key change of which `k` copies are sent. -/
def stateEntry (k : ℕ) : BufferEntry := ⟨k, 2, .keypadState, .mHids⟩

theorem stateEntry_inPattern {k : ℕ} (hk : k ≤ 2) : (stateEntry k).InPattern :=
  ⟨hk, Nat.le_refl 2⟩

/-- The reports an event has handed to the link. -/
def sentBy (s : State sdk) (i : Input) : List Report := (step s i).reports.drop s.reports.length

/-- What the link answers to the first report that `keys_send` hands over for a frame. -/
def directAnswer (s : State sdk) (b₀ b₁ : UInt8) : ErrCode :=
  firstAnswer (changedState s b₀ b₁) .mHids .keypadState 2

theorem sentBy_eq {s : State sdk} {i : Input} {rs : List Report}
    (h : (step s i).reports = s.reports ++ rs) : sentBy s i = rs := by
  rw [sentBy, h, List.drop_left]

/-- **An event on an uninterrupted connection in report mode**: the link takes every report or
has no room for it, and the buffer does not overflow. -/
structure Uninterrupted (s : State sdk) (i : Input) : Prop where
  connected : i.evt ≠ .ble .disconnected
  reportMode : i.evt ≠ .hids .bootModeEntered
  answers : ∀ r ∈ sentBy s i, r.result = .success ∨ r.result = .noTxPackets
  fits : (step s i).bufferList.count ≤ maxBufferEntries

instance (s : State sdk) (i : Input) : Decidable (Uninterrupted s i) :=
  decidable_of_iff (i.evt ≠ .ble .disconnected ∧ i.evt ≠ .hids .bootModeEntered ∧
      (∀ r ∈ sentBy s i, r.result = .success ∨ r.result = .noTxPackets) ∧
      (step s i).bufferList.count ≤ maxBufferEntries)
    ⟨fun ⟨h₁, h₂, h₃, h₄⟩ => ⟨h₁, h₂, h₃, h₄⟩, fun ⟨h₁, h₂, h₃, h₄⟩ => ⟨h₁, h₂, h₃, h₄⟩⟩

/-- What the key path keeps to on such a connection. -/
structure KeyInv (s : State sdk) : Prop where
  wf : s.bufferList.WF
  mode : s.mInBootMode = false
  entries : ∀ e ∈ s.bufferList.queue, ∃ k ≤ 2, e = stateEntry k

theorem keyInv_boot (link : sdk.Link) (pm : sdk.Pm) (uart : sdk.Uart) :
    KeyInv (boot link pm uart) := by
  obtain ⟨hwf, hq⟩ := bufferInit_queue (State.reset link pm uart)
  refine ⟨hwf, rfl, ?_⟩
  intro e he
  rw [show (boot link pm uart).bufferList = (bufferInit (.reset link pm uart)).bufferList from rfl,
    hq] at he
  cases he

/-- **What an event does to the key path** on such a connection. -/
inductive KeyStep (s s' : State sdk) : Event → Prop where
  /-- Nothing: no frame has changed the key state, and no entry waits for room. -/
  | idle {e : Event} :
      (∀ b₀ b₁, e = .uart (.rxDone b₀ b₁) → combinedState (b₀, b₁) = s.keypadState) →
      (∀ n, e = .ble (.txComplete n) → s.bufferList.queue = []) → KeysSame s s' → KeyStep s s' e
  /-- A change is sent outright. -/
  | sent {b₀ b₁ : UInt8} : combinedState (b₀, b₁) ≠ s.keypadState →
      directAnswer s b₀ b₁ = .success →
      s'.keypadState = combinedState (b₀, b₁) → s'.bufferList = s.bufferList →
      s'.reports = s.reports ++ List.replicate 3 (stateReport (combinedState (b₀, b₁)) .success) →
      KeyStep s s' (.uart (.rxDone b₀ b₁))
  /-- Of a change `k` copies are sent, and the rest is held back. -/
  | held {b₀ b₁ : UInt8} (k : ℕ) : combinedState (b₀, b₁) ≠ s.keypadState → k ≤ 2 →
      directAnswer s b₀ b₁ =
        (if k = 0 then .noTxPackets else .success) →
      s.bufferList.count < maxBufferEntries → s'.keypadState = combinedState (b₀, b₁) →
      s'.bufferList = (bufferEnqueue s.bufferList .mHids .keypadState 2 k).2 →
      s'.reports = s.reports ++
        (List.replicate k (stateReport (combinedState (b₀, b₁)) .success) ++
          [stateReport (combinedState (b₀, b₁)) .noTxPackets]) →
      KeyStep s s' (.uart (.rxDone b₀ b₁))
  /-- The oldest entry is sent to the end. -/
  | drained {n : ℕ} (k : ℕ) (q : List BufferEntry) : s.bufferList.queue = stateEntry k :: q →
      k ≤ 2 →
      s'.keypadState = s.keypadState → s'.bufferList = bufferRemove s.bufferList →
      s'.reports = s.reports ++ List.replicate (3 - k) (stateReport s.keypadState .success) →
      KeyStep s s' (.ble (.txComplete n))
  /-- Of the oldest entry `j` more copies are sent. -/
  | kept {n : ℕ} (k j : ℕ) (q : List BufferEntry) : s.bufferList.queue = stateEntry k :: q →
      k + j ≤ 2 → s'.keypadState = s.keypadState →
      s'.bufferList = bufferKeep s.bufferList (k + j) →
      s'.reports = s.reports ++ (List.replicate j (stateReport s.keypadState .success) ++
        [stateReport s.keypadState .noTxPackets]) →
      KeyStep s s' (.ble (.txComplete n))

theorem step_mode {s : State sdk} {i : Input} (hi : i.evt ≠ .hids .bootModeEntered)
    (h : s.mInBootMode = false) : (step s i).mInBootMode = false := by
  obtain ⟨e, u⟩ := i
  cases e with
  | hids e =>
    cases e with
    | bootModeEntered => exact absurd rfl hi
    | reportModeEntered => rfl
    | repCharWrite | notifEnabled | other => exact h
  | _ => exact ((step_handled s ⟨_, u⟩).mode_eq (by simp)).trans h

/-- A result that is neither of the two is not among the answers. -/
theorem Uninterrupted.not_failed {s : State sdk} {i : Input} (hA : Uninterrupted s i) :
    ∀ rs r, (step s i).reports = s.reports ++ rs → r ∈ rs → r.result ≠ .success →
      r.result ≠ .noTxPackets → False := by
  intro rs r h hr hs hn
  rw [← sentBy_eq h] at hr
  rcases hA.answers r hr with h | h
  · exact hs h
  · exact hn h

theorem rxDone_keyStep {s : State sdk} {b₀ b₁ : UInt8} {u : ErrCode} (hI : KeyInv s)
    (hA : Uninterrupted s ⟨.uart (.rxDone b₀ b₁), u⟩) :
    KeyStep s (step s ⟨.uart (.rxDone b₀ b₁), u⟩) (.uart (.rxDone b₀ b₁)) := by
  by_cases hne : combinedState (b₀, b₁) = s.keypadState
  · rw [step_rxDone_of_eq u hne]
    exact .idle (by rintro _ _ ⟨⟩; exact hne) nofun ⟨rfl, rfl, rfl, rfl⟩
  have hsent := keysSend_cases (s := changedState s b₀ b₁) u .keypadState hI.mode
    (by omega : 2 + 1 < 65536)
  have hfits := hA.fits
  have hnot := hA.not_failed
  rw [step_rxDone_of_ne u hne] at hfits hnot ⊢
  generalize keysSend (changedState s b₀ b₁) u 2 .keypadState = t at hsent hfits hnot
  cases hsent with
  | sent l hfirst => exact .sent hne hfirst rfl rfl rfl
  | held l k hk hfirst =>
    refine .held k hne hk hfirst ?_ rfl rfl rfl
    have hle : (bufferEnqueue s.bufferList .mHids .keypadState 2 k).2.count ≤ maxBufferEntries :=
      hfits
    rw [bufferEnqueue_eq hI.wf.wp_lt hI.wf.count_le] at hle
    exact hle
  | failed l k err es herr htx hk =>
    exact (hnot _ _ rfl (List.mem_append_right _ (List.mem_singleton_self _)) herr htx).elim

theorem txComplete_keyStep {s : State sdk} {n : ℕ} {u : ErrCode} (hI : KeyInv s)
    (hA : Uninterrupted s ⟨.ble (.txComplete n), u⟩) :
    KeyStep s (step s ⟨.ble (.txComplete n), u⟩) (.ble (.txComplete n)) := by
  have hnot := hA.not_failed
  rw [step_txComplete] at hnot ⊢
  cases hq : s.bufferList.queue with
  | nil =>
    rw [bufferDequeue_empty (s := deliver s _) u true (count_eq_zero_of_queue hq)]
    exact .idle nofun (fun _ _ => hq) ⟨rfl, rfl, rfl, rfl⟩
  | cons e q =>
    obtain ⟨k, hk, rfl⟩ := hI.entries e (by rw [hq]; exact List.mem_cons_self)
    have hdeq := bufferDequeue_true (s := deliver s (.ble (.txComplete n))) u hI.mode
      (count_pos_of_queue hq) (head_of_queue hI.wf hq) (stateEntry_inPattern hk)
    generalize bufferDequeue (deliver s (.ble (.txComplete n))) u true = r at hdeq hnot
    cases hdeq with
    | done l =>
      refine .drained k q hq hk rfl rfl ?_
      rw [show 3 - k = 2 - k + 1 by omega]
      rfl
    | kept l j hj => exact .kept k j q hq hj rfl rfl rfl
    | failed l j err herr htx hj =>
      exact (hnot _ _ rfl (List.mem_append_right _ (List.mem_singleton_self _)) herr htx).elim

/-- **One event on an uninterrupted connection in report mode.** -/
theorem step_keyStep {s : State sdk} {i : Input} (hI : KeyInv s) (hA : Uninterrupted s i) :
    KeyStep s (step s i) i.evt := by
  obtain ⟨e, u⟩ := i
  by_cases hkey : e.IsKey
  swap
  · refine .idle ?_ ?_ (step_keysSame hkey)
    · rintro b₀ b₁ rfl
      exact absurd trivial hkey
    · rintro n rfl
      exact absurd trivial hkey
  cases e with
  | uart e =>
    cases e with
    | rxDone b₀ b₁ => exact rxDone_keyStep hI hA
    | error | txDone => exact hkey.elim
  | ble e =>
    cases e with
    | txComplete n => exact txComplete_keyStep hI hA
    | disconnected => exact absurd rfl hA.connected
    | _ => exact hkey.elim
  | hids e =>
    cases e with
    | bootModeEntered => exact absurd rfl hA.reportMode
    | reportModeEntered => exact .idle nofun nofun ⟨rfl, rfl, hI.mode.symm, rfl⟩
    | _ => exact hkey.elim
  | pm e | adv e | adc e => exact hkey.elim

/-- What an event does to the entries that wait. -/
theorem KeyStep.queue {s s' : State sdk} {e : Event} (hI : KeyInv s) (h : KeyStep s s' e) :
    s'.bufferList.WF ∧ ∀ x ∈ s'.bufferList.queue, ∃ k ≤ 2, x = stateEntry k := by
  cases h with
  | idle _ _ hsame =>
    rw [hsame.bufferList]
    exact ⟨hI.wf, hI.entries⟩
  | sent _ _ _ hb _ =>
    rw [hb]
    exact ⟨hI.wf, hI.entries⟩
  | held k _ hk _ hc _ hb _ =>
    obtain ⟨hwf, hq⟩ := queue_bufferEnqueue hI.wf hc .mHids .keypadState (by omega : 2 < 256)
      (by omega : k < 256)
    rw [hb]
    refine ⟨hwf, ?_⟩
    intro x hx
    rw [hq, List.mem_append, List.mem_singleton] at hx
    rcases hx with hx | rfl
    · exact hI.entries x hx
    · exact ⟨k, hk, rfl⟩
  | drained k q hq hk _ hb _ =>
    obtain ⟨hwf, hq'⟩ := queue_bufferRemove hI.wf (count_pos_of_queue hq)
    rw [hb]
    refine ⟨hwf, fun x hx => hI.entries x ?_⟩
    rw [hq'] at hx
    exact List.mem_of_mem_tail hx
  | kept k j q hq hk _ hb _ =>
    obtain ⟨hwf, hq'⟩ := queue_bufferKeep hI.wf (count_pos_of_queue hq) (by omega : k + j < 256)
    rw [hb]
    refine ⟨hwf, ?_⟩
    intro x hx
    rw [hq', List.mem_cons] at hx
    rcases hx with rfl | hx
    · refine ⟨k + j, hk, ?_⟩
      rw [head_of_queue hI.wf hq]
      rfl
    · exact hI.entries x (List.mem_of_mem_tail hx)

theorem KeyInv.step {s : State sdk} {i : Input} (hI : KeyInv s) (hA : Uninterrupted s i) :
    KeyInv (SnesController.step s i) := by
  obtain ⟨hwf, hentries⟩ := (step_keyStep hI hA).queue hI
  exact ⟨hwf, step_mode hA.reportMode hI.mode, hentries⟩

/-- **What a completed transmission hands over**, whatever the link answers: at least one
report when an entry waits, each of the key state of the moment. -/
theorem sentBy_txComplete {s : State sdk} (hI : KeyInv s) (hc : 0 < s.bufferList.count) (n : ℕ)
    (u : ErrCode) :
    sentBy s ⟨.ble (.txComplete n), u⟩ ≠ [] ∧
      ∀ r ∈ sentBy s ⟨.ble (.txComplete n), u⟩, r.data = statePayload s.keypadState := by
  cases hq : s.bufferList.queue with
  | nil =>
    have := count_eq_zero_of_queue hq
    omega
  | cons e q =>
    obtain ⟨k, hk, rfl⟩ := hI.entries e (by rw [hq]; exact List.mem_cons_self)
    obtain ⟨rs, hr, hne, hrs⟩ := (bufferDequeue_true (s := deliver s (.ble (.txComplete n))) u
      hI.mode hc (head_of_queue hI.wf hq) (stateEntry_inPattern hk)).reports
    have hsent : sentBy s ⟨.ble (.txComplete n), u⟩ = rs := sentBy_eq hr
    rw [hsent]
    refine ⟨hne, ?_⟩
    intro r hr'
    rw [hrs r hr']
    rfl

end SnesController
