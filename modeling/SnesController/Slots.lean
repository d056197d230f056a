import SnesController.History

/-!
# What the slots hold

Two properties of runs of any kind: any events, in either mode, with any answers of the link.

* No phantom reports. While no more than five entries are held, every entry points to
  `keypad_state`, and what is handed to the link is the state of some frame
  (`noPhantom`). The sixth entry overwrites the first, and a removed slot, whose pointer is
  null, is transmitted in its turn.
* A disconnect flushes the buffer. It removes one entry, so it does exactly when there is at
  most one (`disconnect_flushes_iff`).
-/

namespace SnesController

open RingBuffer EventRun

variable {sdk : Sdk}

/-! ### No phantom reports -/

/-- No more entries are held than there are slots. -/
def Within (s : State sdk) (_ : Input) : Prop := s.bufferList.count ≤ maxBufferEntries

instance (s : State sdk) (i : Input) : Decidable (Within s i) :=
  inferInstanceAs (Decidable (_ ≤ _))

/-- Every report is a frame's, and while no more entries are held than there are slots, every
entry is a key change's, and the key state a frame's. -/
structure SlotInv (c : Watched sdk) : Prop where
  reports : ∀ r ∈ c.1.reports, ∃ v ∈ c.2.frames, r.data = statePayload v
  live : c.1.bufferList.count ≤ maxBufferEntries →
    c.1.bufferList.ring.Live maxBufferEntries BufferEntry.IsKey ∧
      (0 < c.1.bufferList.count → c.1.keypadState ∈ c.2.frames)

theorem slotInv_boot (link : sdk.Link) (pm : sdk.Pm) (uart : sdk.Uart) :
    SlotInv (boot link pm uart, .start) := by
  obtain ⟨hwf, -⟩ := bufferInit_queue (State.reset link pm uart)
  refine ⟨nofun, fun _ => ⟨⟨hwf.toAligned, fun i hi => ?_⟩, fun hc => ?_⟩⟩
  · exact absurd hi (Nat.not_lt_zero i)
  · exact absurd hc (Nat.lt_irrefl 0)

theorem SlotInv.watch {c : Watched sdk} {i : Input} (h : SlotInv c) (hK : Within c.1 i) :
    SlotInv (watch c i) := by
  obtain ⟨hlive, hstate⟩ := h.live hK
  have heff := step_keyEffect c.1 i
  have hframes := watch_frames c i
  rw [← watch_fst] at heff
  generalize SnesController.watch c i = c' at heff hframes
  have hold : ∀ v ∈ c.2.frames, v ∈ c'.2.frames := by
    intro v hv
    rw [hframes]
    exact List.mem_append_left _ hv
  -- what the reports handed over before say still holds
  have hreports : ∀ r ∈ c.1.reports, ∃ v ∈ c'.2.frames, r.data = statePayload v := by
    intro r hr
    obtain ⟨v, hv, hdata⟩ := h.reports r hr
    exact ⟨v, hold v hv, hdata⟩
  have hsame : c'.1.bufferList = c.1.bufferList → c'.1.keypadState = c.1.keypadState →
      c'.1.reports = c.1.reports → SlotInv c' := by
    intro hb hk hr
    refine ⟨by rw [hr]; exact hreports, ?_⟩
    intro _
    rw [hb, hk]
    exact ⟨hlive, fun hc => hold _ (hstate hc)⟩
  have hmore : ∀ rs, c'.1.reports = c.1.reports ++ rs →
      (∀ r ∈ rs, ∃ v ∈ c'.2.frames, r.data = statePayload v) →
      ∀ r ∈ c'.1.reports, ∃ v ∈ c'.2.frames, r.data = statePayload v := by
    intro rs hr hrs r hmem
    rw [hr] at hmem
    rcases List.mem_append.mp hmem with hmem | hmem
    · exact hreports r hmem
    · exact hrs r hmem
  generalize i.evt = e at heff hframes
  cases heff with
  | other _ hs | unchanged _ hs | idle _ hs | flushed _ hs =>
    exact hsame hs.bufferList hs.keypadState hs.reports
  | mode hb hk hr => exact hsame hb hk hr
  | @changed b₀ b₁ rs hne hk hr hdata hb =>
    have hnew : combinedState (b₀, b₁) ∈ c'.2.frames := by
      rw [hframes]
      exact List.mem_append_right _ (List.mem_singleton_self _)
    refine ⟨hmore rs hr fun r hmem => ⟨_, hnew, hdata r hmem⟩, ?_⟩
    intro _
    rw [hk]
    refine ⟨?_, fun _ => hnew⟩
    rcases hb with hb | ⟨k, hb⟩
    · rw [hb]
      exact hlive
    · rw [hb, bufferEnqueue_eq hlive.wp_lt hK]
      exact hlive.push ⟨rfl, rfl⟩
  | dequeued rs hc hk hr hrs hb =>
    refine ⟨hmore rs hr fun r hmem => ⟨_, hold _ (hstate hc), ?_⟩, fun _ => ?_⟩
    · rw [hrs r hmem]
      exact (hlive.head hc).data c.1 r.result
    rw [hk]
    refine ⟨?_, fun _ => hold _ (hstate hc)⟩
    rcases hb with hb | hb | ⟨a, hb⟩
    · rw [hb]
      exact hlive
    · rw [hb, bufferRemove_eq hlive.rp_lt (Nat.le_succ_of_le hK)]
      exact hlive.pop hc hK _
    · rw [hb]
      exact hlive.setHead (hlive.head hc)
  | dropped hc hb hk hr =>
    refine ⟨by rw [hr]; exact hreports, ?_⟩
    intro _
    rw [hb, hk, bufferRemove_eq hlive.rp_lt (Nat.le_succ_of_le hK)]
    exact ⟨hlive.pop hc hK _, fun _ => hold _ (hstate hc)⟩

/-- **No phantom reports while the buffer is not overfilled**: in any run that never holds more
entries than there are slots, every report handed to the link is the little-endian state of a
frame and two zeros, and no completed transmission finds an entry without data. -/
theorem noPhantom (link : sdk.Link) (pm : sdk.Pm) (uart : sdk.Uart) {es : List Input}
    (hK : Along step Within (boot link pm uart) es) :
    (∀ r ∈ (run step (boot link pm uart) es).reports,
      ∃ v ∈ frames es, r.data = leBytes v ++ [0, 0]) ∧
    Along step (fun s i => ∀ n, i.evt = .ble (.txComplete n) → s.bufferList.count ≠ 0 →
      (s.bufferList.buffer s.bufferList.rp).pData ≠ .null) (boot link pm uart) es := by
  have hA : Along watch (fun c i => Within c.1 i) (boot link pm uart, History.start) es :=
    along_watch.mpr hK
  constructor
  · have hinv : SlotInv (watched link pm uart es) :=
      Along.run_inv (fun _ _ h hi => h.watch hi) hA (slotInv_boot link pm uart)
    rw [← watched_fst, ← watched_frames link pm uart es]
    exact hinv.reports
  · refine along_watch.mp (Along.of_inv (I := SlotInv) (fun _ _ h hi => h.watch hi) ?_ hA
      (slotInv_boot link pm uart))
    intro c i h hi n _ hc hnull
    obtain ⟨hp, -⟩ := (h.live hi).1.head (Nat.pos_of_ne_zero hc)
    rw [show (c.1.bufferList.ring.slots c.1.bufferList.ring.rp).pData = _ from hnull] at hp
    cases hp

/-- A burst of three changes, a disconnect and what is left. -/
theorem noPhantom_burst :
    (∀ r ∈ (run step (deviceBoot 1)
        [frame 0 1, frame 0 2, frame 0 3, disconnected, txComplete 1]).reports,
      ∃ v ∈ frames [frame 0 1, frame 0 2, frame 0 3, disconnected, txComplete 1],
        r.data = leBytes v ++ [0, 0]) ∧
    Along step (fun s i => ∀ n, i.evt = .ble (.txComplete n) → s.bufferList.count ≠ 0 →
        (s.bufferList.buffer s.bufferList.rp).pData ≠ .null) (deviceBoot 1)
      [frame 0 1, frame 0 2, frame 0 3, disconnected, txComplete 1] :=
  noPhantom (deviceLink 1) (devicePm 1) (deviceUart 1) (by decide)

/-- Seven changes, six of which find no room, and six completed transmissions. -/
def overfilled : List Input :=
  [frame 0 1, frame 0 2, frame 0 3, frame 0 4, frame 0 5, frame 0 6, frame 0 7] ++
    List.replicate 6 (txComplete 3)

/-- The last of them transmits what lies at the null pointer. -/
theorem phantom_report :
    ¬ ∀ r ∈ (run step (deviceBoot 3) overfilled).reports,
      ∃ v ∈ frames overfilled, r.data = leBytes v ++ [0, 0] := by
  decide

/-! ### A disconnect -/

/-- A disconnect leaves the buffer empty and transmits nothing. -/
def Flushes (s : State sdk) (i : Input) : Prop :=
  i.evt = .ble .disconnected →
    (step s i).bufferList.count = 0 ∧ (step s i).reports = s.reports

instance (s : State sdk) (i : Input) : Decidable (Flushes s i) :=
  inferInstanceAs (Decidable (_ → _))

/-- A disconnect finds at most one entry. -/
def AtMostOne (s : State sdk) (i : Input) : Prop :=
  i.evt = .ble .disconnected → s.bufferList.count ≤ 1

/-- The buffer as a ring of changes. -/
def ownerRing (b : BufferList) (owner : ℕ → Change) : RingBuffer Change :=
  ⟨owner, b.rp, b.wp, b.count⟩

/-- Every change in the buffer was made on the present connection, and every report handed over
was handed over on the connection its change was made on. -/
structure OwnerInv (c : Watched sdk) : Prop where
  live : (ownerRing c.1.bufferList c.2.owner).Live maxBufferEntries
    (·.connection = c.2.connection)
  count_le : c.1.bufferList.count ≤ maxBufferEntries + 1
  sent : ∀ x ∈ c.2.sent, x.change.connection = x.connection

theorem ownerInv_boot (link : sdk.Link) (pm : sdk.Pm) (uart : sdk.Uart) :
    OwnerInv (boot link pm uart, .start) := by
  obtain ⟨⟨⟨hr, hw, heq⟩, -⟩, -⟩ := bufferInit_queue (State.reset link pm uart)
  refine ⟨⟨⟨hr, hw, heq⟩, fun i hi => absurd hi (Nat.not_lt_zero i)⟩, Nat.zero_le _, nofun⟩

/-- Reports handed over for a change of the present connection. -/
theorem OwnerInv.attribute {c : Watched sdk} (h : OwnerInv c) {ch : Change}
    (hch : ch.connection = c.2.connection) (rs : List Report) :
    ∀ x ∈ c.2.sent ++ c.2.attribute ch rs, x.change.connection = x.connection := by
  intro x hx
  rcases List.mem_append.mp hx with hx | hx
  · exact h.sent x hx
  · obtain ⟨r, -, rfl⟩ := List.mem_map.mp hx
    exact hch

/-- A removal leaves the others as they are. -/
theorem live_bufferRemove {b : BufferList} {owner : ℕ → Change} {P : Change → Prop}
    (h : (ownerRing b owner).Live maxBufferEntries P) (hle : b.count ≤ maxBufferEntries + 1)
    (hc : 0 < b.count) :
    (ownerRing (bufferRemove b) owner).Live maxBufferEntries P ∧
      (bufferRemove b).count = b.count - 1 := by
  rw [bufferRemove_eq h.rp_lt hle]
  exact ⟨h.pop_self hc, rfl⟩

/-- The buffer as it was, with the same changes in it. -/
theorem OwnerInv.of_same {c c' : Watched sdk} (h : OwnerInv c)
    (hb : c'.1.bufferList = c.1.bufferList) (howner : c'.2.owner = c.2.owner)
    (hconn : c'.2.connection = c.2.connection)
    (hsent : ∀ x ∈ c'.2.sent, x.change.connection = x.connection) : OwnerInv c' := by
  refine ⟨?_, ?_, hsent⟩
  · rw [hb, howner, hconn]
    exact h.live
  · rw [hb]
    exact h.count_le

theorem OwnerInv.watch {c : Watched sdk} {i : Input} (h : OwnerInv c) (hK : AtMostOne c.1 i) :
    OwnerInv (watch c i) := by
  obtain ⟨s, hist⟩ := c
  have heff := step_keyEffect s i
  show OwnerInv (step s i, observe hist s i (step s i))
  generalize step s i = s' at heff
  obtain ⟨e, u⟩ := i
  dsimp only at heff
  unfold AtMostOne at hK
  dsimp only at hK
  have hsame : KeysSame s s' → e ≠ .ble .disconnected →
      (∀ b₀ b₁, e = .uart (.rxDone b₀ b₁) → combinedState (b₀, b₁) = s.keypadState) →
      OwnerInv (s', observe hist s ⟨e, u⟩ s') := by
    intro hs hconn hframe
    rw [observe_same (i := ⟨e, u⟩) hist hs hconn hframe]
    exact h.of_same hs.bufferList rfl rfl h.sent
  cases heff with
  | other hkey hs =>
    exact hsame hs (by rintro rfl; exact hkey trivial)
      (by rintro b₀ b₁ rfl; exact absurd trivial hkey)
  | unchanged heq hs => exact hsame hs (by rintro ⟨⟩) (by rintro _ _ ⟨⟩; exact heq)
  | idle _ hs => exact hsame hs (by rintro ⟨⟩) (by rintro _ _ ⟨⟩)
  | mode hb hk hr => exact h.of_same hb rfl rfl h.sent
  | @changed b₀ b₁ rs hne hk hr hdata hb =>
    rw [observe_changed hist hne hr]
    have hsent := h.attribute
      (show (hist.change (combinedState (b₀, b₁))).connection = hist.connection from rfl) rs
    have hkept : s'.bufferList = s.bufferList →
        OwnerInv (s', hist.changed s s' (combinedState (b₀, b₁)) rs) := by
      intro hb
      rw [History.changed, if_neg (by rw [hb]; exact Nat.lt_irrefl _)]
      exact h.of_same hb rfl rfl hsent
    rcases hb with hb | ⟨k, hb⟩
    · exact hkept hb
    · by_cases hfull : s.bufferList.count = maxBufferEntries + 1
      · rw [bufferEnqueue_full hfull] at hb
        exact hkept hb
      · have hle : s.bufferList.count ≤ maxBufferEntries :=
          Nat.le_of_lt_succ (Nat.lt_of_le_of_ne h.count_le hfull)
        rw [bufferEnqueue_eq h.live.wp_lt hle] at hb
        rw [History.changed, if_pos (by rw [hb]; exact Nat.lt_succ_self _)]
        refine ⟨?_, ?_, hsent⟩
        · rw [hb]
          exact h.live.push rfl
        · rw [hb]
          exact Nat.succ_le_succ hle
  | dequeued rs hc hk hr hrs hb =>
    rw [observe_dequeued hist hr]
    have hsent := h.attribute (h.live.head hc) rs
    rcases hb with hb | hb | ⟨a, hb⟩
    · exact h.of_same hb rfl rfl hsent
    · obtain ⟨hlive, hcount⟩ := live_bufferRemove h.live h.count_le hc
      rw [← hb] at hlive hcount
      exact ⟨hlive, hcount ▸ (Nat.sub_le _ 1).trans h.count_le, hsent⟩
    · refine ⟨?_, ?_, hsent⟩
      · rw [hb]
        exact h.live
      · rw [hb]
        exact h.count_le
  | flushed hc hs =>
    rw [observe_disconnected hist hs.reports]
    refine ⟨⟨?_, fun i hi => ?_⟩, ?_, h.sent⟩
    · rw [hs.bufferList]
      exact h.live.toAligned
    · rw [hs.bufferList] at hi
      exact absurd (Nat.lt_of_lt_of_eq hi hc) (Nat.not_lt_zero i)
    · rw [hs.bufferList]
      exact h.count_le
  | dropped hc hb hk hr =>
    have hone : s.bufferList.count ≤ 1 := hK rfl
    obtain ⟨hlive, hcount⟩ := live_bufferRemove h.live h.count_le hc
    rw [← hb] at hlive hcount
    dsimp only at hcount
    have hzero : s'.bufferList.count = 0 := by omega
    rw [observe_disconnected hist hr]
    refine ⟨⟨hlive.toAligned, fun i hi => ?_⟩, ?_, h.sent⟩
    · exact absurd (Nat.lt_of_lt_of_eq hi hzero) (Nat.not_lt_zero i)
    · rw [hzero]
      exact Nat.zero_le _

/-- A disconnect flushes the buffer just when it finds at most one entry. -/
theorem OwnerInv.flushes_iff {c : Watched sdk} {i : Input} (h : OwnerInv c) :
    Flushes c.1 i ↔ AtMostOne c.1 i := by
  obtain ⟨e, u⟩ := i
  by_cases hd : e = .ble .disconnected
  swap
  · exact ⟨fun _ he => absurd he hd, fun _ he => absurd he hd⟩
  subst hd
  have heff := step_keyEffect c.1 ⟨.ble .disconnected, u⟩
  unfold Flushes AtMostOne
  generalize step c.1 ⟨.ble .disconnected, u⟩ = s' at heff
  simp only [forall_const]
  dsimp only at heff
  cases heff with
  | other hkey _ => exact absurd trivial hkey
  | flushed hc hs =>
    refine ⟨fun _ => ?_, fun _ => ⟨?_, hs.reports⟩⟩
    · rw [hc]
      exact Nat.zero_le 1
    · rw [hs.bufferList, hc]
  | dropped hc hb hk hr =>
    obtain ⟨-, hcount⟩ := live_bufferRemove h.live h.count_le hc
    rw [← hb] at hcount
    constructor
    · rintro ⟨hzero, -⟩
      omega
    · intro hone
      exact ⟨by omega, hr⟩

/-- **A disconnect flushes the buffer exactly when at most one entry is buffered**: in a run of
any kind, every disconnect leaves the buffer empty and transmits nothing, and no report is
handed over on a later connection than its key change was made on, just when every disconnect
finds at most one entry. -/
theorem disconnect_flushes_iff (link : sdk.Link) (pm : sdk.Pm) (uart : sdk.Uart)
    (es : List Input) :
    (Along step Flushes (boot link pm uart) es ∧
      ∀ p, p <+: es → ∀ x ∈ (watched link pm uart p).2.sent, x.change.connection = x.connection) ↔
      Along step AtMostOne (boot link pm uart) es := by
  have hexact : Along watch (fun c i => Flushes c.1 i ∧
        ∀ x ∈ (watch c i).2.sent, x.change.connection = x.connection)
      (boot link pm uart, History.start) es ↔
        Along watch (fun c i => AtMostOne c.1 i) (boot link pm uart, History.start) es := by
    refine along_iff_of_inv (I := OwnerInv) (fun c i h _ hK => h.watch hK) ?_
      (along_true _ es) (ownerInv_boot link pm uart)
    intro c i h _
    exact ⟨fun hT => h.flushes_iff.mp hT.1, fun hK => ⟨h.flushes_iff.mpr hK, (h.watch hK).sent⟩⟩
  have hstates : (∀ p, p <+: es → ∀ x ∈ (watched link pm uart p).2.sent,
      x.change.connection = x.connection) ↔
        (∀ x ∈ History.start.sent, x.change.connection = x.connection) ∧
        Along watch (fun c i => ∀ x ∈ (watch c i).2.sent, x.change.connection = x.connection)
          (boot link pm uart, History.start) es :=
    forall_states_iff (P := fun c : Watched sdk =>
      ∀ x ∈ c.2.sent, x.change.connection = x.connection)
  rw [along_and, along_watch (K := Flushes), along_watch (K := AtMostOne)] at hexact
  rw [hstates, ← hexact]
  exact ⟨fun h => ⟨h.1, h.2.2⟩, fun h => ⟨h.1, nofun, h.2⟩⟩

/-- Two changes wait when the connection ends. The second is transmitted on the next one. -/
theorem change_survives :
    ¬ (Along step Flushes (deviceBoot 3)
        [frame 0 1, frame 0 2, frame 0 3, disconnected, txComplete 0] ∧
      ∀ x ∈ (watched (deviceLink 3) (devicePm 3) (deviceUart 3)
        [frame 0 1, frame 0 2, frame 0 3, disconnected, txComplete 0]).2.sent,
          x.change.connection = x.connection) := by
  decide

end SnesController
