import SnesController.History
import SnesController.Library.Stutter

/-!
# What reaches the central

Three properties of a run on one uninterrupted connection in report mode, from the main
loop's start.

* No stuck buttons: when the buffer is empty, the last report the link took shows the buttons
  of the last frame (`lastReport_shows_lastFrame`).
* No key change lost or altered. An entry of the buffer points to `keypad_state`, so a change
  that waits is sent as whatever the key state is by then: the property holds exactly when no
  key change is made while the buffer holds an entry (`delivered_iff`).
* No overtaking. `keys_send` tries the link before it looks at the buffer, so a new change may
  be sent before an older one that waits: the property holds exactly when the link refuses the
  first report of every change made while the buffer holds an entry (`inOrder_iff`).

Each is proved on the ledger, with an invariant that its steps keep.
-/

namespace SnesController

open RingBuffer EventRun Stutter

variable {sdk : Sdk}

/-- The reports the link took. -/
def acceptedReports (rs : List Report) : List Report := rs.filter (·.accepted)

/-- The payloads the link took, in order. -/
def acceptedData (rs : List Report) : List (List UInt8) := (acceptedReports rs).map (·.data)

/-- The key changes that frames make: the distinct successive states, after the initial 0. -/
def keyChanges (vs : List UInt16) : List UInt16 := ((0 :: vs).destutter (· ≠ ·)).tail

/-- The numbers of the changes whose reports the link took, in order. -/
def acceptedNumbers (sent : List Sent) : List ℕ :=
  (sent.filter (·.report.accepted)).map (·.change.number)

/-! ### Reports and changes -/

theorem acceptedData_append (rs rs' : List Report) :
    acceptedData (rs ++ rs') = acceptedData rs ++ acceptedData rs' := by
  simp [acceptedData, acceptedReports]

theorem acceptedNumbers_append (xs ys : List Sent) :
    acceptedNumbers (xs ++ ys) = acceptedNumbers xs ++ acceptedNumbers ys := by
  simp [acceptedNumbers]

/-- The payloads taken, from the ledger. -/
def Ledger.accepted (l : Ledger) : List (List UInt8) := acceptedData (l.sent.map (·.report))

theorem acceptedData_copies (l : Ledger) (c : Change) (v : UInt16) (n : ℕ) :
    acceptedData ((l.copies c v n).map (·.report)) = List.replicate n (statePayload v) := by
  simp [acceptedData, acceptedReports, Ledger.copies, Report.accepted, stateReport]

theorem acceptedData_refused (l : Ledger) (c : Change) (v : UInt16) :
    acceptedData ([l.refused c v].map (·.report)) = [] := by
  simp [acceptedData, acceptedReports, Ledger.refused, Report.accepted, stateReport]

theorem acceptedNumbers_copies (l : Ledger) (c : Change) (v : UInt16) (n : ℕ) :
    acceptedNumbers (l.copies c v n) = List.replicate n c.number := by
  simp [acceptedNumbers, Ledger.copies, Report.accepted, stateReport]

theorem acceptedNumbers_refused (l : Ledger) (c : Change) (v : UInt16) :
    acceptedNumbers [l.refused c v] = [] := by
  simp [acceptedNumbers, Ledger.refused, Report.accepted, stateReport]

theorem accepted_copies (l : Ledger) (c : Change) (v : UInt16) (n : ℕ) :
    acceptedData ((l.sent ++ l.copies c v n).map (·.report)) =
      l.accepted ++ List.replicate n (statePayload v) := by
  rw [List.map_append, acceptedData_append, acceptedData_copies]
  rfl

theorem accepted_copies_refused (l : Ledger) (c : Change) (v : UInt16) (n : ℕ) :
    acceptedData ((l.sent ++ (l.copies c v n ++ [l.refused c v])).map (·.report)) =
      l.accepted ++ List.replicate n (statePayload v) := by
  rw [← List.append_assoc, List.map_append, acceptedData_append, accepted_copies,
    acceptedData_refused, List.append_nil]

theorem getLast?_append_replicate {α : Type*} (l : List α) (x : α) (n : ℕ) :
    (l ++ List.replicate (n + 1) x).getLast? = some x := by
  rw [List.getLast?_append, List.getLast?_replicate, if_neg (Nat.succ_ne_zero n)]
  rfl

theorem getLast?_zero_cons_concat (vs : List UInt16) (v : UInt16) :
    (0 :: (vs ++ [v])).getLast? = some v := List.getLast?_concat (l := 0 :: vs)

/-! ### No stuck buttons -/

/-- With nothing waiting, the last report taken is that of the key state, which is that of the
last frame. -/
structure LastShown (l : Ledger) : Prop where
  state : (0 :: l.frames).getLast? = some l.state
  unchanged : l.changes = 0 → ∀ v ∈ l.frames, v = 0
  shown : l.waiting = [] → l.changes ≠ 0 → l.accepted.getLast? = some (statePayload l.state)

theorem LastShown.step {answer : UInt8 → UInt8 → ErrCode} {l l' : Ledger} {e : Event}
    (h : LastShown l) (hs : LedgerStep answer l e l') : LastShown l' := by
  cases hs with
  | idle => exact h
  | unchanged _ =>
    refine ⟨getLast?_zero_cons_concat _ _, fun hc v hv => ?_, h.shown⟩
    have hzero : ∀ v ∈ 0 :: l.frames, v = 0 := by
      intro v hv
      rcases List.mem_cons.mp hv with rfl | hv
      · rfl
      · exact h.unchanged hc v hv
    rcases List.mem_append.mp hv with hv | hv
    · exact h.unchanged hc v hv
    · rw [List.mem_singleton.mp hv]
      exact hzero _ (List.mem_of_getLast? h.state)
  | sent _ _ _ =>
    refine ⟨getLast?_zero_cons_concat _ _, fun hc => absurd hc (Nat.succ_ne_zero _), fun _ _ => ?_⟩
    rw [Ledger.accepted, accepted_copies]
    exact getLast?_append_replicate _ _ 2
  | held k _ _ _ _ =>
    exact ⟨getLast?_zero_cons_concat _ _, fun hc => absurd hc (Nat.succ_ne_zero _),
      fun hw => absurd hw (by simp)⟩
  | drained c k w _ hk =>
    refine ⟨h.state, h.unchanged, ?_⟩
    intro _ _
    rw [Ledger.accepted, accepted_copies, show 3 - k = 2 - k + 1 by omega]
    exact getLast?_append_replicate _ _ _
  | kept c k j w _ _ => exact ⟨h.state, h.unchanged, fun hw => absurd hw (List.cons_ne_nil _ _)⟩

theorem lastShown_start : LastShown ⟨0, [], [], 0, 0, []⟩ :=
  ⟨rfl, by simp, fun _ hc => absurd rfl hc⟩

theorem accepted_watched (link : sdk.Link) (pm : sdk.Pm) (uart : sdk.Uart) (es : List Input) :
    (ledger (watched link pm uart es)).accepted =
      acceptedData (run step (boot link pm uart) es).reports := by
  rw [← watched_fst, ← watched_reports]
  rfl

/-- **No stuck buttons**: on an uninterrupted connection in report mode, once a frame has
changed the key state and whenever the buffer is empty, the last report the link took, read by
the report map, has button `k + 1` pressed exactly when bit `k` of the last frame is set. -/
theorem lastReport_shows_lastFrame (link : sdk.Link) (pm : sdk.Pm) (uart : sdk.Uart)
    {es : List Input} (hA : Along step Uninterrupted (boot link pm uart) es)
    (hempty : (run step (boot link pm uart) es).bufferList.count = 0)
    (hchange : ∃ v ∈ frames es, v ≠ 0) :
    ∃ r b₀ b₁, (acceptedReports (run step (boot link pm uart) es).reports).getLast? = some r ∧
      lastReceived es = some (b₀, b₁) ∧
      ∀ k < 12, ReportMap.pressed reportMapData joystickReportId.toNat r.data (k + 1) =
        some ((b₀.toNat * 256 + b₁.toNat).testBit k) := by
  have hJ := watched_inv lastShown_start (fun _ _ _ _ => LastShown.step) hA
  have hframes : (ledger (watched link pm uart es)).frames = frames es :=
    watched_frames link pm uart es
  obtain ⟨v, hv, hv0⟩ := hchange
  have hc : (ledger (watched link pm uart es)).changes ≠ 0 := by
    intro hc
    exact hv0 (hJ.unchanged hc v (by rw [hframes]; exact hv))
  have hw : (ledger (watched link pm uart es)).waiting = [] := by
    rw [← watched_fst] at hempty
    exact waiting_eq_nil_iff.mpr hempty
  have hshown := hJ.shown hw hc
  rw [accepted_watched, acceptedData, List.getLast?_map, Option.map_eq_some_iff] at hshown
  obtain ⟨r, hr, hdata⟩ := hshown
  have hlast : (frames es).getLast? = some (ledger (watched link pm uart es)).state := by
    obtain ⟨w, ws, hws⟩ := List.exists_cons_of_ne_nil (List.ne_nil_of_mem hv)
    rw [← hJ.state, hframes, hws, List.getLast?_cons_cons]
  rw [getLast?_frames, Option.map_eq_some_iff] at hlast
  obtain ⟨⟨b₀, b₁⟩, hlast, hstate⟩ := hlast
  refine ⟨r, b₀, b₁, hr, hlast, ?_⟩
  intro k hk
  rw [hdata, ← hstate]
  exact pressed_statePayload b₀ b₁ hk

/-- The twelve buttons of `0x0A01`, of which two copies are sent at once and one is resent. -/
theorem lastReport_shows_0A01 :
    ∃ r b₀ b₁, (acceptedReports (run step (deviceBoot 2)
        [frame 0x0A 0x01, txComplete 2]).reports).getLast? = some r ∧
      lastReceived [frame 0x0A 0x01, txComplete 2] = some (b₀, b₁) ∧
      ∀ k < 12, ReportMap.pressed reportMapData joystickReportId.toNat r.data (k + 1) =
        some ((b₀.toNat * 256 + b₁.toNat).testBit k) :=
  lastReport_shows_lastFrame (deviceLink 2) (devicePm 2) (deviceUart 2) (by decide) (by decide)
    ⟨0x0A01, by decide, by decide⟩

/-! ### No key change lost or altered -/

/-- **What the central should have seen**, with `vs` the states the frames carried: when the
buffer is empty, the payloads taken are those of the key changes, repetitions collapsed; and a
completed transmission would hand over the oldest waiting change as the key state it was made
with. -/
structure Delivered (c : Watched sdk) (vs : List UInt16) : Prop where
  empty : c.1.bufferList.count = 0 →
    (acceptedData c.1.reports).destutter (· ≠ ·) = (keyChanges vs).map statePayload
  head : ∀ n u, ∀ r ∈ sentBy c.1 ⟨.ble (.txComplete n), u⟩,
    r.data = statePayload (c.2.owner c.1.bufferList.rp).state

theorem keyChanges_concat (vs : List UInt16) (v : UInt16) :
    keyChanges (vs ++ [v]) =
      if (0 :: vs).getLast? = some v then keyChanges vs else keyChanges vs ++ [v] := by
  have hne : (0 :: vs).destutter (· ≠ ·) ≠ [] := by
    rw [List.destutter_cons']
    exact List.destutter'_ne_nil vs (· ≠ ·)
  unfold keyChanges
  rw [← List.cons_append, destutter_concat]
  split_ifs
  · rfl
  · exact List.tail_append_of_ne_nil hne

/-- The last key change is the last state. -/
theorem getLast?_keyChanges {vs : List UInt16} {v w : UInt16} (h : (0 :: vs).getLast? = some v)
    (hw : (keyChanges vs).getLast? = some w) : w = v := by
  rw [← getLast?_destutter] at h
  rw [keyChanges, List.getLast?_tail] at hw
  split_ifs at hw
  rw [h] at hw
  exact (Option.some.inj hw).symm

/-- The payloads the central should have seen. -/
def Ledger.due (l : Ledger) : List (List UInt8) := (keyChanges l.frames).map statePayload

/-- Every change is sent with its own state: nothing waits and all has been seen, or the last
change waits alone, none of its copies or some of them taken. -/
structure Tracking (l : Ledger) : Prop where
  state : (0 :: l.frames).getLast? = some l.state
  seen : l.waiting = [] → l.accepted.destutter (· ≠ ·) = l.due
  waits : ∀ c k w, l.waiting = (c, k) :: w → w = [] ∧ c.state = l.state ∧
    (k = 0 → Due l.accepted l.due (statePayload l.state)) ∧
    (k ≠ 0 → Shown l.accepted l.due (statePayload l.state))

theorem tracking_start : Tracking ⟨0, [], [], 0, 0, []⟩ := ⟨rfl, fun _ => rfl, nofun⟩

/-- When all has been seen, a new change is due. -/
theorem Tracking.due {l : Ledger} (h : Tracking l) (hw : l.waiting = []) {v : UInt16}
    (hv : v ≠ l.state) :
    Due l.accepted ((keyChanges (l.frames ++ [v])).map statePayload) (statePayload v) := by
  have hseen := h.seen hw
  constructor
  · intro hlast
    rw [← getLast?_destutter, hseen, Ledger.due, List.getLast?_map, Option.map_eq_some_iff] at hlast
    obtain ⟨w, hlast, hpayload⟩ := hlast
    rw [statePayload_injective hpayload] at hlast
    exact hv (getLast?_keyChanges h.state hlast)
  · rw [hseen, keyChanges_concat, if_neg, List.map_append]
    · rfl
    · rw [h.state]
      exact fun heq => hv (Option.some.inj heq).symm

theorem Tracking.step {answer : UInt8 → UInt8 → ErrCode} {l l' : Ledger} {e : Event}
    (h : Tracking l) (hs : LedgerStep answer l e l')
    (hK : ∀ b₀ b₁, e = .uart (.rxDone b₀ b₁) → combinedState (b₀, b₁) ≠ l.state → l.waiting = []) :
    Tracking l' := by
  cases hs with
  | idle => exact h
  | unchanged _ =>
    have hdue : keyChanges (l.frames ++ [l.state]) = keyChanges l.frames := by
      rw [keyChanges_concat, if_pos h.state]
    refine ⟨getLast?_zero_cons_concat _ _, ?_, ?_⟩
    · simp only [Ledger.due, hdue]
      exact h.seen
    · simp only [Ledger.due, hdue]
      exact h.waits
  | @sent b₀ b₁ v hv hne _ =>
    have hw := hK b₀ b₁ rfl (hv ▸ hne)
    have hshown := (h.due hw hne).show 2
    refine ⟨getLast?_zero_cons_concat _ _, fun _ => ?_, fun c k w hcons => ?_⟩
    · rw [Ledger.accepted, accepted_copies]
      exact hshown.collapsed
    · rw [show l.waiting = (c, k) :: w from hcons] at hw
      cases hw
  | @held b₀ b₁ v k hv hne hk _ =>
    have hw := hK b₀ b₁ rfl (hv ▸ hne)
    have hdue := h.due hw hne
    refine ⟨getLast?_zero_cons_concat _ _, fun hnil => absurd hnil (by simp), ?_⟩
    intro c k' w hcons
    simp only [hw, List.nil_append, List.cons.injEq, Prod.mk.injEq] at hcons
    obtain ⟨⟨rfl, rfl⟩, rfl⟩ := hcons
    refine ⟨rfl, rfl, fun hk0 => ?_, fun hk0 => ?_⟩
    · rw [Ledger.accepted, accepted_copies_refused, hk0, List.replicate_zero, List.append_nil]
      exact hdue
    · rw [Ledger.accepted, accepted_copies_refused, show k = k - 1 + 1 by omega]
      exact hdue.show (k - 1)
  | drained c k w hcons hk =>
    obtain ⟨rfl, -, hzero, hpos⟩ := h.waits c k w hcons
    refine ⟨h.state, ?_, fun c' k' w' hnil => by cases hnil⟩
    intro _
    rw [Ledger.accepted, accepted_copies]
    by_cases hk0 : k = 0
    · rw [hk0]
      exact ((hzero hk0).show 2).collapsed
    · exact ((hpos hk0).repeat (3 - k)).collapsed
  | kept c k j w hcons hk =>
    obtain ⟨rfl, hstate, hzero, hpos⟩ := h.waits c k w hcons
    refine ⟨h.state, fun hnil => (List.cons_ne_nil _ _ hnil).elim, ?_⟩
    intro c' k' w' hcons'
    simp only [List.cons.injEq, Prod.mk.injEq] at hcons'
    obtain ⟨⟨rfl, rfl⟩, rfl⟩ := hcons'
    refine ⟨rfl, hstate, fun hkj => ?_, fun hkj => ?_⟩
    · obtain ⟨rfl, rfl⟩ : k = 0 ∧ j = 0 := by omega
      rw [Ledger.accepted, accepted_copies_refused, List.replicate_zero, List.append_nil]
      exact hzero rfl
    · rw [Ledger.accepted, accepted_copies_refused]
      by_cases hk0 : k = 0
      · rw [show j = j - 1 + 1 by omega]
        exact (hzero hk0).show (j - 1)
      · exact (hpos hk0).repeat j

/-- Where every change is sent with its own state, the central sees what it should. -/
theorem Tracking.delivered {c : Watched sdk} (hI : WatchInv c) (h : Tracking (ledger c)) :
    Delivered c c.2.frames := by
  constructor
  · intro hc
    rw [← hI.reports]
    exact h.seen (waiting_eq_nil_iff.mpr hc)
  · intro n u r hr
    cases hw : (ledger c).waiting with
    | nil =>
      have hempty : sentBy c.1 ⟨.ble (.txComplete n), u⟩ = [] := by
        rw [sentBy, step_txComplete, bufferDequeue_empty (s := deliver c.1 (.ble (.txComplete n)))
          u true (waiting_eq_nil_iff.mp hw)]
        exact List.drop_length
      rw [hempty] at hr
      cases hr
    | cons x w =>
      obtain ⟨ch, k⟩ := x
      obtain ⟨hc, howner⟩ := owner_of_waiting hI.keys hw
      obtain ⟨-, hstate, -⟩ := h.waits ch k w hw
      rw [(sentBy_txComplete hI.keys hc n u).2 r hr, howner, hstate]
      rfl

/-- A change made while another waits alters what the other will be sent as. -/
theorem Tracking.altered {c : Watched sdk} {b₀ b₁ : UInt8} {u : ErrCode} (hI : WatchInv c)
    (h : Tracking (ledger c)) (hA : Uninterrupted c.1 ⟨.uart (.rxDone b₀ b₁), u⟩)
    (hne : combinedState (b₀, b₁) ≠ c.1.keypadState) (hc : 0 < c.1.bufferList.count)
    (vs : List UInt16) : ¬ Delivered (watch c ⟨.uart (.rxDone b₀ b₁), u⟩) vs := by
  intro hdel
  cases hw : (ledger c).waiting with
  | nil =>
    have := waiting_eq_nil_iff.mp hw
    omega
  | cons x w =>
    obtain ⟨ch, k⟩ := x
    obtain ⟨-, hstate, -⟩ := h.waits ch k w hw
    obtain ⟨hstate', w', hw'⟩ := (watch_ledgerStep hI.keys hA).waiting_of_ne hne
    rw [hw, List.cons_append] at hw'
    have hI' := hI.watch hA
    obtain ⟨hc', howner⟩ := owner_of_waiting hI'.keys hw'.symm
    -- the next completed transmission hands over the new state for the old change
    obtain ⟨hsent, hdata⟩ := sentBy_txComplete hI'.keys hc' 0 .success
    obtain ⟨r, rs, hrs⟩ := List.exists_cons_of_ne_nil hsent
    have hr : r ∈ sentBy (watch c ⟨.uart (.rxDone b₀ b₁), u⟩).1
        ⟨.ble (.txComplete 0), .success⟩ := by
      rw [hrs]
      exact List.mem_cons_self
    have hpayload := hdel.head 0 .success r hr
    rw [hdata r hr, howner, hstate] at hpayload
    have hold := statePayload_injective hpayload
    exact hne (hstate'.symm.trans hold)

/-- No change of the key state is made while the buffer holds an entry. -/
def Undisturbed (s : State sdk) (i : Input) : Prop :=
  ∀ v ∈ frameOf i.evt, v ≠ s.keypadState → s.bufferList.count = 0

instance (s : State sdk) (i : Input) : Decidable (Undisturbed s i) :=
  (frameOf i.evt).decidableForallMem

theorem Tracking.watch {c : Watched sdk} {i : Input} (hI : WatchInv c) (h : Tracking (ledger c))
    (hA : Uninterrupted c.1 i) (hK : Undisturbed c.1 i) :
    Tracking (ledger (watch c i)) := by
  refine h.step (watch_ledgerStep hI.keys hA) fun b₀ b₁ he hne => waiting_eq_nil_iff.mpr ?_
  unfold Undisturbed at hK
  rw [he] at hK
  exact hK _ (Option.mem_some_self _) hne

/-- **No key change is lost or altered exactly while none is made with another buffered**: on
an uninterrupted connection in report mode, the central sees throughout what it should just
when no frame changes the key state while the buffer holds an entry. -/
theorem delivered_iff (link : sdk.Link) (pm : sdk.Pm) (uart : sdk.Uart) {es : List Input}
    (hA : Along step Uninterrupted (boot link pm uart) es) :
    (∀ p, p <+: es → Delivered (watched link pm uart p) (frames p)) ↔
      Along step Undisturbed (boot link pm uart) es := by
  simp only [← watched_frames link pm uart]
  refine watched_iff (P := fun c : Watched sdk => Delivered c c.2.frames) tracking_start
    (fun c i hI hJ hi hK => hJ.watch hI hi hK) ?_ hA
    (Tracking.delivered ⟨keyInv_boot link pm uart, rfl⟩ tracking_start)
  intro c i hI hJ hi
  constructor
  · intro hdel v hv hne
    obtain ⟨e, u⟩ := i
    obtain ⟨b₀, b₁, rfl, rfl⟩ := frameOf_eq_some hv
    by_contra hc
    exact hJ.altered hI hi hne (Nat.pos_of_ne_zero hc) _ hdel
  · intro hK
    exact Tracking.delivered (hI.watch hi) (hJ.watch hI hi hK)

/-- Two changes, one of them cut short, and never one while another waits. -/
theorem delivered_twoChanges :
    Delivered (watched (deviceLink 2) (devicePm 2) (deviceUart 2)
        [frame 0x00 0x01, txComplete 2, frame 0x0A 0x01])
      (frames [frame 0x00 0x01, txComplete 2, frame 0x0A 0x01]) :=
  (delivered_iff (deviceLink 2) (devicePm 2) (deviceUart 2) (by decide)).mpr (by decide) _
    List.prefix_rfl

/-- Of three changes the last two wait; both are sent as the third. -/
theorem change_lost :
    Along step Uninterrupted (deviceBoot 3)
        [frame 0 1, frame 0 2, frame 0 3, txComplete 3, txComplete 3] ∧
      (run step (deviceBoot 3)
        [frame 0 1, frame 0 2, frame 0 3, txComplete 3, txComplete 3]).bufferList.count = 0 ∧
      (acceptedData (run step (deviceBoot 3)
        [frame 0 1, frame 0 2, frame 0 3, txComplete 3, txComplete 3]).reports).destutter (· ≠ ·) ≠
        (keyChanges (frames [frame 0 1, frame 0 2, frame 0 3, txComplete 3, txComplete 3])).map
          statePayload := by
  decide

/-! ### No overtaking -/

/-- **No change overtakes another**: the numbers of the changes whose reports the link took do
not decrease, and none of them is past a change that still waits. -/
structure InOrder (l : Ledger) : Prop where
  sorted : (acceptedNumbers l.sent).Pairwise (· ≤ ·)
  notPast : ∀ x ∈ acceptedNumbers l.sent, ∀ w ∈ l.waiting, x ≤ w.1.number

/-- In order, with the changes that wait in order too and none of a number not yet given. -/
structure Queued (l : Ledger) : Prop extends InOrder l where
  sent_le : ∀ x ∈ acceptedNumbers l.sent, x ≤ l.changes
  waiting_sorted : l.waiting.Pairwise fun w w' => w.1.number ≤ w'.1.number
  waiting_le : ∀ w ∈ l.waiting, w.1.number ≤ l.changes

theorem queued_start : Queued ⟨0, [], [], 0, 0, []⟩ :=
  ⟨⟨List.Pairwise.nil, nofun⟩, nofun, List.Pairwise.nil, nofun⟩

theorem pairwise_append_replicate {xs : List ℕ} (h : xs.Pairwise (· ≤ ·)) {y : ℕ}
    (hy : ∀ x ∈ xs, x ≤ y) (n : ℕ) : (xs ++ List.replicate n y).Pairwise (· ≤ ·) := by
  rw [List.pairwise_append]
  refine ⟨h, List.pairwise_replicate.mpr (.inr (Nat.le_refl y)), ?_⟩
  intro x hx z hz
  rw [List.eq_of_mem_replicate hz]
  exact hy x hx

theorem le_of_mem_append_replicate {xs : List ℕ} {y b : ℕ} {n : ℕ} (hxs : ∀ x ∈ xs, x ≤ b)
    (hy : y ≤ b) : ∀ x ∈ xs ++ List.replicate n y, x ≤ b := by
  intro x hx
  rcases List.mem_append.mp hx with hx | hx
  · exact hxs x hx
  · rw [List.eq_of_mem_replicate hx]
    exact hy

theorem acceptedNumbers_sent_copies (l : Ledger) (c : Change) (v : UInt16) (n : ℕ) :
    acceptedNumbers (l.sent ++ l.copies c v n) =
      acceptedNumbers l.sent ++ List.replicate n c.number := by
  rw [acceptedNumbers_append, acceptedNumbers_copies]

theorem acceptedNumbers_sent_refused (l : Ledger) (c : Change) (v : UInt16) (n : ℕ) :
    acceptedNumbers (l.sent ++ (l.copies c v n ++ [l.refused c v])) =
      acceptedNumbers l.sent ++ List.replicate n c.number := by
  rw [← List.append_assoc, acceptedNumbers_append, acceptedNumbers_sent_copies,
    acceptedNumbers_refused, List.append_nil]

/-- What follows the head of what waits. -/
structure Behind (l : Ledger) (c : Change) (w : List (Change × ℕ)) : Prop where
  sorted : w.Pairwise fun w w' => w.1.number ≤ w'.1.number
  after : ∀ y ∈ w, c.number ≤ y.1.number
  notPast : ∀ x ∈ acceptedNumbers l.sent, ∀ y ∈ w, x ≤ y.1.number
  le : ∀ y ∈ w, y.1.number ≤ l.changes

theorem Queued.head {l : Ledger} (h : Queued l) {c : Change} {k : ℕ} {w : List (Change × ℕ)}
    (hcons : l.waiting = (c, k) :: w) :
    (∀ x ∈ acceptedNumbers l.sent, x ≤ c.number) ∧ c.number ≤ l.changes ∧ Behind l c w := by
  obtain ⟨⟨-, hpast⟩, -, hsorted, hle⟩ := h
  rw [hcons] at hpast hsorted hle
  obtain ⟨hafter, hsorted⟩ := List.pairwise_cons.mp hsorted
  refine ⟨fun x hx => hpast x hx _ List.mem_cons_self, hle _ List.mem_cons_self, hsorted, hafter,
    fun x hx y hy => hpast x hx y (List.mem_cons_of_mem _ hy),
    fun y hy => hle y (List.mem_cons_of_mem _ hy)⟩

theorem Queued.step {answer : UInt8 → UInt8 → ErrCode} {l l' : Ledger} {e : Event}
    (h : Queued l) (hs : LedgerStep answer l e l')
    (hK : ∀ b₀ b₁, e = .uart (.rxDone b₀ b₁) → combinedState (b₀, b₁) ≠ l.state →
      l.waiting ≠ [] → answer b₀ b₁ = .noTxPackets) : Queued l' := by
  have hlt : ∀ x ∈ acceptedNumbers l.sent, x ≤ l.changes + 1 := fun x hx =>
    Nat.le_succ_of_le (h.sent_le x hx)
  cases hs with
  | idle => exact h
  | unchanged _ => exact ⟨⟨h.sorted, h.notPast⟩, h.sent_le, h.waiting_sorted, h.waiting_le⟩
  | @sent b₀ b₁ v hv hne hans =>
    have hw : l.waiting = [] := by
      by_contra hw
      rw [hK b₀ b₁ rfl (hv ▸ hne) hw] at hans
      cases hans
    refine ⟨⟨?_, ?_⟩, ?_, h.waiting_sorted, fun w hmem => ?_⟩
    · simp only [acceptedNumbers_sent_copies]
      exact pairwise_append_replicate h.sorted hlt 3
    · intro x _ w hmem
      rw [show (l.next v).waiting = [] from hw] at hmem
      cases hmem
    · simp only [acceptedNumbers_sent_copies]
      exact le_of_mem_append_replicate hlt (Nat.le_refl _)
    · exact Nat.le_succ_of_le (h.waiting_le w hmem)
  | @held b₀ b₁ v k hv hne hk hans =>
    have hkw : k = 0 ∨ l.waiting = [] := by
      by_contra hcon
      rw [not_or] at hcon
      rw [hK b₀ b₁ rfl (hv ▸ hne) hcon.2, if_neg hcon.1] at hans
      cases hans
    have hle : ∀ x ∈ acceptedNumbers l.sent ++ List.replicate k (l.change v).number,
        x ≤ l.changes + 1 := le_of_mem_append_replicate hlt (Nat.le_refl _)
    refine ⟨⟨?_, ?_⟩, ?_, ?_, ?_⟩
    · simp only [acceptedNumbers_sent_refused]
      exact pairwise_append_replicate h.sorted hlt k
    · simp only [acceptedNumbers_sent_refused]
      intro x hx w hmem
      rcases List.mem_append.mp hmem with hold | hnew
      · -- an older change waits, so nothing was sent for this one
        rcases hkw with hk0 | hw
        · rw [hk0, List.replicate_zero, List.append_nil] at hx
          exact h.notPast x hx w hold
        · rw [hw] at hold
          cases hold
      · rw [List.mem_singleton.mp hnew]
        exact hle x hx
    · simp only [acceptedNumbers_sent_refused]
      exact hle
    · simp only [List.pairwise_append, List.pairwise_singleton, List.mem_singleton]
      refine ⟨h.waiting_sorted, trivial, ?_⟩
      rintro w hmem _ rfl
      exact Nat.le_succ_of_le (h.waiting_le w hmem)
    · intro w hmem
      rcases List.mem_append.mp hmem with hmem | hmem
      · exact Nat.le_succ_of_le (h.waiting_le w hmem)
      · rw [List.mem_singleton.mp hmem]
        exact Nat.le_refl _
  | drained c k w hcons hk =>
    obtain ⟨hsent, hc, hrest⟩ := h.head hcons
    refine ⟨⟨?_, ?_⟩, ?_, hrest.sorted, hrest.le⟩
    · simp only [acceptedNumbers_sent_copies]
      exact pairwise_append_replicate h.sorted hsent _
    · simp only [acceptedNumbers_sent_copies]
      exact fun x hx y hy => le_of_mem_append_replicate (fun z hz => hrest.notPast z hz y hy)
        (hrest.after y hy) x hx
    · simp only [acceptedNumbers_sent_copies]
      exact le_of_mem_append_replicate h.sent_le hc
  | kept c k j w hcons hk =>
    obtain ⟨hsent, hc, hrest⟩ := h.head hcons
    refine ⟨⟨?_, ?_⟩, ?_, List.pairwise_cons.mpr ⟨hrest.after, hrest.sorted⟩, ?_⟩
    · simp only [acceptedNumbers_sent_refused]
      exact pairwise_append_replicate h.sorted hsent _
    · simp only [acceptedNumbers_sent_refused]
      intro x hx y hy
      rcases List.mem_cons.mp hy with rfl | hy
      · exact le_of_mem_append_replicate hsent (Nat.le_refl _) x hx
      · exact le_of_mem_append_replicate (fun z hz => hrest.notPast z hz y hy) (hrest.after y hy)
          x hx
    · simp only [acceptedNumbers_sent_refused]
      exact le_of_mem_append_replicate h.sent_le hc
    · intro x hx
      rcases List.mem_cons.mp hx with rfl | hx
      · exact hc
      · exact hrest.le x hx

/-- A change the link takes a report of while another waits overtakes it. -/
theorem Queued.overtaken {answer : UInt8 → UInt8 → ErrCode} {l l' : Ledger} {b₀ b₁ : UInt8}
    (h : Queued l) (hs : LedgerStep answer l (.uart (.rxDone b₀ b₁)) l')
    (hne : combinedState (b₀, b₁) ≠ l.state) (hw : l.waiting ≠ [])
    (hans : answer b₀ b₁ ≠ .noTxPackets) : ¬ InOrder l' := by
  intro hin
  obtain ⟨⟨c, k⟩, w, hcons⟩ := List.exists_cons_of_ne_nil hw
  obtain ⟨-, hc, -⟩ := h.head hcons
  have hsent : l.changes + 1 ∈ acceptedNumbers l'.sent := by
    cases hs with
    | idle hf _ => cases hf
    | unchanged heq => exact absurd heq hne
    | sent _ _ _ =>
      rw [acceptedNumbers_sent_copies]
      exact List.mem_append_right _ (List.mem_replicate.mpr ⟨by omega, rfl⟩)
    | held k _ _ _ hk =>
      have hk0 : k ≠ 0 := by
        rintro rfl
        exact hans hk
      rw [acceptedNumbers_sent_refused]
      exact List.mem_append_right _ (List.mem_replicate.mpr ⟨hk0, rfl⟩)
  obtain ⟨-, w', hw'⟩ := hs.waiting_of_ne hne
  have hle := hin.notPast _ hsent (c, k) (by rw [← hw', hcons]; exact List.mem_cons_self)
  exact absurd (hle.trans hc) (Nat.not_succ_le_self _)

/-- The link has no room for the first report of a change made while the buffer holds an
entry. -/
def HeldBack (s : State sdk) (i : Input) : Prop :=
  ∀ b ∈ received i.evt, combinedState b ≠ s.keypadState → s.bufferList.count ≠ 0 →
    directAnswer s b.1 b.2 = .noTxPackets

instance (s : State sdk) (i : Input) : Decidable (HeldBack s i) :=
  (received i.evt).decidableForallMem

theorem Queued.watch {c : Watched sdk} {i : Input} (hI : WatchInv c) (h : Queued (ledger c))
    (hA : Uninterrupted c.1 i) (hK : HeldBack c.1 i) :
    Queued (ledger (watch c i)) := by
  apply h.step (watch_ledgerStep hI.keys hA)
  intro b₀ b₁ he hne hw
  unfold HeldBack at hK
  rw [he] at hK
  exact hK (b₀, b₁) (Option.mem_some_self _) hne (hw ∘ waiting_eq_nil_iff.mpr)

/-- **No change overtakes another exactly while the link refuses each that could**: on an
uninterrupted connection in report mode, the changes are sent in order throughout just when the
link has no room for the first report of any change made while the buffer holds an entry. -/
theorem inOrder_iff (link : sdk.Link) (pm : sdk.Pm) (uart : sdk.Uart) {es : List Input}
    (hA : Along step Uninterrupted (boot link pm uart) es) :
    (∀ p, p <+: es → InOrder (ledger (watched link pm uart p))) ↔
      Along step HeldBack (boot link pm uart) es := by
  refine watched_iff (P := fun c : Watched sdk => InOrder (ledger c)) queued_start
    (fun c i hI hJ hi hK => hJ.watch hI hi hK) ?_ hA queued_start.toInOrder
  intro c i hI hJ hi
  constructor
  · rintro hin ⟨b₀, b₁⟩ hb hne hc
    obtain ⟨e, u⟩ := i
    by_contra hans
    unfold received at hb
    dsimp only at hb
    split at hb
    · obtain ⟨rfl, rfl⟩ := Prod.mk.inj (Option.some.inj hb)
      exact hJ.overtaken (watch_ledgerStep hI.keys hi) hne (hc ∘ waiting_eq_nil_iff.mp) hans hin
    · cases hb
  · intro hK
    exact (hJ.watch hI hi hK).toInOrder

/-- Two changes of which the second waits for the first. -/
theorem inOrder_twoChanges :
    InOrder (ledger (watched (deviceLink 2) (devicePm 2) (deviceUart 2)
      [frame 0 1, frame 0 2, txComplete 2, txComplete 1, txComplete 2])) :=
  (inOrder_iff (deviceLink 2) (devicePm 2) (deviceUart 2) (by decide)).mpr (by decide) _
    List.prefix_rfl

/-- The first change's last copy leaves a TX buffer free, and the third change takes it before
the second. -/
theorem change_overtaken :
    Along step Uninterrupted (deviceBoot 2)
        [frame 0 1, frame 0 2, txComplete 2, frame 0 3, txComplete 2] ∧
      ¬ (acceptedNumbers (ledger (watched (deviceLink 2) (devicePm 2) (deviceUart 2)
        [frame 0 1, frame 0 2, txComplete 2, frame 0 3, txComplete 2])).sent).Pairwise (· ≤ ·) := by
  decide

end SnesController
