import SnesController.ReportMode

/-!
# The history of a run

What the properties of a run speak of and the state does not hold: the frames received, the
number of each key change in the order `uart_event_handler` passes them to `keys_send`, the
connection it was made on, and for each report handed to the link the change it was handed
over for. The change is the frame's own when `keys_send` hands the report over, and that of
the entry when `buffer_dequeue` does: the history keeps, for each slot of the buffer, the
change that was last enqueued there.

A history is computed by watching the run; the firmware does not see it. `watch_ledgerStep`
says what an event on an uninterrupted connection in report mode does to the `Ledger`, the
changes that wait and the reports sent for each.
-/

namespace SnesController

open RingBuffer EventRun

variable {sdk : Sdk}

/-- A key change: its number, from 1, its key state, and the connection it was made on. -/
structure Change where
  number : ℕ
  state : UInt16
  connection : ℕ
  deriving DecidableEq, Repr

/-- A report handed to the link: for which change, and on which connection. -/
structure Sent where
  change : Change
  connection : ℕ
  report : Report
  deriving DecidableEq, Repr

/-- The history of a run. -/
structure History where
  /-- The states the frames carried, in order. -/
  frames : List UInt16
  /-- How many key changes there were. -/
  changes : ℕ
  /-- How many connections have ended. -/
  connection : ℕ
  /-- The change last enqueued in each slot. -/
  owner : ℕ → Change
  /-- The reports handed to the link, in order. -/
  sent : List Sent

/-- Before the first event. -/
def History.start : History := ⟨[], 0, 0, fun _ => ⟨0, 0, 0⟩, []⟩

/-- Reports handed over for a change. -/
def History.attribute (h : History) (c : Change) (rs : List Report) : List Sent :=
  rs.map (⟨c, h.connection, ·⟩)

/-- The change a frame makes. -/
def History.change (h : History) (v : UInt16) : Change := ⟨h.changes + 1, v, h.connection⟩

/-- The history after a key change. -/
def History.changed (h : History) (s s' : State sdk) (v : UInt16) (rs : List Report) : History :=
  { h with
    frames := h.frames ++ [v]
    changes := h.changes + 1
    owner := if s.bufferList.count < s'.bufferList.count
      then Function.update h.owner s.bufferList.wp (h.change v) else h.owner
    sent := h.sent ++ h.attribute (h.change v) rs }

/-- The history after a dequeue. -/
def History.dequeued (h : History) (s : State sdk) (rs : List Report) : History :=
  { h with sent := h.sent ++ h.attribute (h.owner s.bufferList.rp) rs }

/-- The history after an event. -/
def observe (h : History) (s : State sdk) (i : Input) (s' : State sdk) : History :=
  let rs := s'.reports.drop s.reports.length
  match i.evt with
  | .uart (.rxDone b₀ b₁) =>
    let v := combinedState (b₀, b₁)
    if v = s.keypadState then { h with frames := h.frames ++ [v] } else h.changed s s' v rs
  | .ble (.txComplete _) => h.dequeued s rs
  | .ble .disconnected => { h.dequeued s rs with connection := h.connection + 1 }
  | _ => h

/-- A state and the history of the run to it. -/
abbrev Watched (sdk : Sdk) := State sdk × History

/-- One event, watched. -/
def watch (c : Watched sdk) (i : Input) : Watched sdk := observed step observe c i

/-- A run from the main loop's start, watched. -/
def watched (link : sdk.Link) (pm : sdk.Pm) (uart : sdk.Uart) (es : List Input) : Watched sdk :=
  run watch (boot link pm uart, .start) es

/-- The two bytes of a frame. -/
def received : Event → Option (UInt8 × UInt8)
  | .uart (.rxDone b₀ b₁) => some (b₀, b₁)
  | _ => none

/-- The state a frame carries. -/
def frameOf (e : Event) : Option UInt16 := (received e).map combinedState

/-- The states the frames of a run carry. -/
def frames (es : List Input) : List UInt16 := es.filterMap fun i => frameOf i.evt

/-- The bytes of the last frame of a run. -/
def lastReceived (es : List Input) : Option (UInt8 × UInt8) :=
  (es.filterMap fun i => received i.evt).getLast?

theorem getLast?_frames (es : List Input) :
    (frames es).getLast? = (lastReceived es).map combinedState := by
  unfold frames lastReceived frameOf
  rw [← List.map_filterMap, List.getLast?_map]

theorem frameOf_eq_some {e : Event} {v : UInt16} (h : frameOf e = some v) :
    ∃ b₀ b₁, e = .uart (.rxDone b₀ b₁) ∧ combinedState (b₀, b₁) = v := by
  unfold frameOf received at h
  split at h
  · exact ⟨_, _, rfl, Option.some.inj h⟩
  · cases h

@[simp] theorem watch_fst (c : Watched sdk) (i : Input) : (watch c i).1 = step c.1 i := rfl

@[simp] theorem run_watch_fst (c : Watched sdk) (es : List Input) :
    (run watch c es).1 = run step c.1 es := run_observed_fst observe c es

theorem watch_frames (c : Watched sdk) (i : Input) :
    (watch c i).2.frames = c.2.frames ++ (frameOf i.evt).toList := by
  obtain ⟨s, h⟩ := c
  obtain ⟨e, u⟩ := i
  show (observe h s ⟨e, u⟩ (step s ⟨e, u⟩)).frames = _
  cases e with
  | uart e =>
    cases e with
    | rxDone b₀ b₁ =>
      simp only [observe]
      split_ifs <;> rfl
    | error | txDone => exact (List.append_nil _).symm
  | ble e => cases e <;> exact (List.append_nil _).symm
  | hids e | pm e | adv e | adc e => exact (List.append_nil _).symm

/-- The history holds the frames of the run. -/
theorem run_watch_frames (c : Watched sdk) (es : List Input) :
    (run watch c es).2.frames = c.2.frames ++ frames es := by
  induction es generalizing c with
  | nil => exact (List.append_nil _).symm
  | cons i es ih =>
    rw [run_cons, ih, watch_frames, List.append_assoc]
    congr 1
    cases h : frameOf i.evt <;> simp [frames, h]

theorem watched_frames (link : sdk.Link) (pm : sdk.Pm) (uart : sdk.Uart) (es : List Input) :
    (watched link pm uart es).2.frames = frames es := run_watch_frames _ es

/-! ### The ledger -/

/-- The buffer as a ring of changes, each with how many of its copies are sent. -/
def changeRing (b : BufferList) (owner : ℕ → Change) : RingBuffer (Change × ℕ) :=
  ⟨fun i => (owner i, (b.buffer i).dataOffset), b.rp, b.wp, b.count⟩

/-- The changes that wait in the buffer, oldest first. -/
def waiting (b : BufferList) (owner : ℕ → Change) : List (Change × ℕ) :=
  (changeRing b owner).queue maxBufferEntries

/-- The changes that wait, and what was sent. -/
structure Ledger where
  /-- The current key state. -/
  state : UInt16
  waiting : List (Change × ℕ)
  frames : List UInt16
  changes : ℕ
  connection : ℕ
  sent : List Sent

/-- The ledger of a watched state. -/
def ledger (c : Watched sdk) : Ledger where
  state := c.1.keypadState
  waiting := waiting c.1.bufferList c.2.owner
  frames := c.2.frames
  changes := c.2.changes
  connection := c.2.connection
  sent := c.2.sent

/-- `n` accepted copies of a key state, for a change. -/
def Ledger.copies (l : Ledger) (c : Change) (v : UInt16) (n : ℕ) : List Sent :=
  List.replicate n ⟨c, l.connection, stateReport v .success⟩

/-- A copy the link has no room for. -/
def Ledger.refused (l : Ledger) (c : Change) (v : UInt16) : Sent :=
  ⟨c, l.connection, stateReport v .noTxPackets⟩

/-- The change a frame makes. -/
def Ledger.change (l : Ledger) (v : UInt16) : Change := ⟨l.changes + 1, v, l.connection⟩

/-- The ledger with a new key state. -/
def Ledger.next (l : Ledger) (v : UInt16) : Ledger :=
  { l with state := v, frames := l.frames ++ [v], changes := l.changes + 1 }

/-- **What an event does to the ledger.** `answer` is what the link answers to the first report
`keys_send` hands over for a frame. What waits is sent with the key state of the moment, not
with that of its change. -/
inductive LedgerStep (answer : UInt8 → UInt8 → ErrCode) (l : Ledger) : Event → Ledger → Prop where
  | idle {e : Event} : frameOf e = none → (∀ n, e = .ble (.txComplete n) → l.waiting = []) →
      LedgerStep answer l e l
  | unchanged {b₀ b₁ : UInt8} : combinedState (b₀, b₁) = l.state →
      LedgerStep answer l (.uart (.rxDone b₀ b₁)) { l with frames := l.frames ++ [l.state] }
  | sent {b₀ b₁ : UInt8} {v : UInt16} : v = combinedState (b₀, b₁) → v ≠ l.state →
      answer b₀ b₁ = .success →
      LedgerStep answer l (.uart (.rxDone b₀ b₁))
        { l.next v with sent := l.sent ++ l.copies (l.change v) v 3 }
  | held {b₀ b₁ : UInt8} {v : UInt16} (k : ℕ) : v = combinedState (b₀, b₁) → v ≠ l.state → k ≤ 2 →
      answer b₀ b₁ = (if k = 0 then .noTxPackets else .success) →
      LedgerStep answer l (.uart (.rxDone b₀ b₁))
        { l.next v with
          waiting := l.waiting ++ [(l.change v, k)]
          sent := l.sent ++ (l.copies (l.change v) v k ++ [l.refused (l.change v) v]) }
  | drained {n : ℕ} (c : Change) (k : ℕ) (w : List (Change × ℕ)) : l.waiting = (c, k) :: w → k ≤ 2 →
      LedgerStep answer l (.ble (.txComplete n))
        { l with waiting := w, sent := l.sent ++ l.copies c l.state (3 - k) }
  | kept {n : ℕ} (c : Change) (k j : ℕ) (w : List (Change × ℕ)) : l.waiting = (c, k) :: w →
      k + j ≤ 2 →
      LedgerStep answer l (.ble (.txComplete n))
        { l with
          waiting := (c, k + j) :: w
          sent := l.sent ++ (l.copies c l.state j ++ [l.refused c l.state]) }

/-! ### What waits, under the operations of the buffer -/

theorem BufferList.WF.changeRing {b : BufferList} (h : b.WF) (owner : ℕ → Change) :
    (changeRing b owner).WF maxBufferEntries :=
  ⟨⟨h.rp_lt, h.wp_lt, h.wp_eq⟩, h.count_le⟩

theorem changeRing_bufferEnqueue {b : BufferList} (h : b.WF) (owner : ℕ → Change) (c : Change)
    (pHids : HidsPtr) (p : PatternPtr) {k : ℕ} (hk : k < 256) :
    changeRing (bufferEnqueue b pHids p 2 k).2 (Function.update owner b.wp c) =
      (changeRing b owner).push maxBufferEntries (c, k) := by
  rw [bufferEnqueue_eq h.wp_lt h.count_le, u8_of_lt hk]
  unfold SnesController.changeRing RingBuffer.push
  simp only [RingBuffer.mk.injEq, and_true]
  funext i
  by_cases hi : i = b.wp
  · subst hi
    simp
  · simp [hi]

theorem changeRing_bufferRemove {b : BufferList} (h : b.WF) (owner : ℕ → Change) :
    changeRing (bufferRemove b) owner =
      { changeRing b owner with rp := next maxBufferEntries b.rp, count := b.count - 1 } := by
  rw [bufferRemove_eq h.rp_lt (Nat.le_succ_of_le h.count_le)]
  unfold SnesController.changeRing
  simp only [RingBuffer.mk.injEq, and_true]
  funext i
  by_cases hi : i = b.rp
  · subst hi
    simp
  · simp [hi]

theorem changeRing_bufferKeep (b : BufferList) (owner : ℕ → Change) {a : ℕ} (ha : a < 256) :
    changeRing (bufferKeep b a) owner = (changeRing b owner).setHead (owner b.rp, a) := by
  have hslots : (fun i => (owner i, ((bufferKeep b a).buffer i).dataOffset)) =
      Function.update (fun i => (owner i, (b.buffer i).dataOffset)) b.rp (owner b.rp, a) := by
    funext i
    by_cases hi : i = b.rp
    · subst hi
      simp [bufferKeep, u8_of_lt ha]
    · simp [bufferKeep, hi]
  unfold SnesController.changeRing
  rw [hslots]
  rfl

theorem waiting_of_queue {b : BufferList} (h : b.WF) (owner : ℕ → Change) {e : BufferEntry}
    {q : List BufferEntry} (hq : b.queue = e :: q) :
    waiting b owner = (owner b.rp, e.dataOffset) :: (waiting b owner).tail := by
  have hcons := queue_eq_cons (h.changeRing owner) (count_pos_of_queue hq)
  have hhead : (changeRing b owner).slots (changeRing b owner).rp = (owner b.rp, e.dataOffset) := by
    rw [← head_of_queue h hq]
    rfl
  unfold waiting
  rw [hcons, List.tail_cons, hhead]

theorem waiting_eq_nil_iff {b : BufferList} {owner : ℕ → Change} :
    waiting b owner = [] ↔ b.count = 0 := queue_eq_nil_iff

/-! ### The ledger of a run -/

theorem attribute_replicate (h : History) (c : Change) (r : Report) (n : ℕ) :
    h.attribute c (List.replicate n r) = List.replicate n ⟨c, h.connection, r⟩ :=
  List.map_replicate

/-- An event that leaves the key path alone adds at most a frame to the history. -/
theorem observe_same {s s' : State sdk} {i : Input} (h : History) (hsame : KeysSame s s')
    (hconn : i.evt ≠ .ble .disconnected)
    (hframe : ∀ b₀ b₁, i.evt = .uart (.rxDone b₀ b₁) → combinedState (b₀, b₁) = s.keypadState) :
    observe h s i s' = { h with frames := h.frames ++ (frameOf i.evt).toList } := by
  have hnew : s'.reports.drop s.reports.length = [] := by rw [hsame.reports, List.drop_length]
  have hno : { h with frames := h.frames ++ [] } = h := by rw [List.append_nil]
  obtain ⟨e, u⟩ := i
  unfold observe
  rw [hnew]
  cases e with
  | uart e =>
    cases e with
    | rxDone b₀ b₁ => exact if_pos (hframe b₀ b₁ rfl)
    | error | txDone => exact hno.symm
  | ble e =>
    cases e with
    | disconnected => exact absurd rfl hconn
    | txComplete n => simp [History.dequeued, History.attribute, frameOf, received]
    | _ => exact hno.symm
  | hids e | pm e | adv e | adc e => exact hno.symm

theorem observe_changed {s s' : State sdk} {b₀ b₁ : UInt8} {u : ErrCode} {rs : List Report}
    (h : History) (hne : combinedState (b₀, b₁) ≠ s.keypadState)
    (hr : s'.reports = s.reports ++ rs) :
    observe h s ⟨.uart (.rxDone b₀ b₁), u⟩ s' = h.changed s s' (combinedState (b₀, b₁)) rs := by
  unfold observe
  rw [hr, List.drop_left]
  exact if_neg hne

theorem observe_dequeued {s s' : State sdk} {n : ℕ} {u : ErrCode} {rs : List Report} (h : History)
    (hr : s'.reports = s.reports ++ rs) :
    observe h s ⟨.ble (.txComplete n), u⟩ s' = h.dequeued s rs := by
  unfold observe
  rw [hr, List.drop_left]

theorem observe_disconnected {s s' : State sdk} {u : ErrCode} (h : History)
    (hr : s'.reports = s.reports) :
    observe h s ⟨.ble .disconnected, u⟩ s' = { h with connection := h.connection + 1 } := by
  unfold observe
  rw [hr, List.drop_length]
  simp [History.dequeued, History.attribute]

theorem map_report_attribute (h : History) (c : Change) (rs : List Report) :
    (h.attribute c rs).map (·.report) = rs := by
  unfold History.attribute
  rw [List.map_map]
  exact List.map_id rs

/-- Every report handed to the link is attributed to a change, whatever the run. -/
theorem watch_reports {c : Watched sdk} (i : Input) (h : c.2.sent.map (·.report) = c.1.reports) :
    (watch c i).2.sent.map (·.report) = (watch c i).1.reports := by
  obtain ⟨s, hist⟩ := c
  have heff := step_keyEffect s i
  show (observe hist s i (step s i)).sent.map (·.report) = (step s i).reports
  generalize step s i = s' at heff
  obtain ⟨e, u⟩ := i
  dsimp only at h heff ⊢
  cases heff with
  | other hkey hsame =>
    rw [observe_same hist hsame (by rintro rfl; exact hkey trivial)
      (by rintro b₀ b₁ rfl; exact absurd trivial hkey)]
    exact h.trans hsame.reports.symm
  | mode hb hk hr => exact h.trans hr.symm
  | unchanged heq hsame =>
    rw [observe_same hist hsame (by rintro ⟨⟩) (by rintro _ _ ⟨⟩; exact heq)]
    exact h.trans hsame.reports.symm
  | changed rs hne hk hr hdata hb =>
    rw [observe_changed hist hne hr, hr, ← h, History.changed, List.map_append,
      map_report_attribute]
  | idle hc hsame =>
    rw [observe_same hist hsame (by rintro ⟨⟩) (by rintro _ _ ⟨⟩)]
    exact h.trans hsame.reports.symm
  | dequeued rs hc hk hr hrs hb =>
    rw [observe_dequeued hist hr, hr, ← h, History.dequeued, List.map_append, map_report_attribute]
  | flushed hc hsame =>
    rw [observe_disconnected hist hsame.reports]
    exact h.trans hsame.reports.symm
  | dropped hc hb hk hr =>
    rw [observe_disconnected hist hr]
    exact h.trans hr.symm

@[simp] theorem watched_fst (link : sdk.Link) (pm : sdk.Pm) (uart : sdk.Uart) (es : List Input) :
    (watched link pm uart es).1 = run step (boot link pm uart) es := run_watch_fst _ es

theorem watched_reports (link : sdk.Link) (pm : sdk.Pm) (uart : sdk.Uart) (es : List Input) :
    (watched link pm uart es).2.sent.map (·.report) = (watched link pm uart es).1.reports :=
  Along.run_inv (I := fun c : Watched sdk => c.2.sent.map (·.report) = c.1.reports)
    (fun _ i h _ => watch_reports i h) (along_true _ es) rfl

/-- **What an event does to the ledger**, on an uninterrupted connection in report mode. -/
theorem watch_ledgerStep {c : Watched sdk} {i : Input} (hI : KeyInv c.1)
    (hA : Uninterrupted c.1 i) :
    LedgerStep (directAnswer c.1) (ledger c) i.evt (ledger (watch c i)) := by
  obtain ⟨s, h⟩ := c
  have hstep := step_keyStep hI hA
  have hconn := hA.connected
  show LedgerStep _ (ledger (s, h)) i.evt (ledger (step s i, observe h s i (step s i)))
  generalize step s i = s' at hstep
  obtain ⟨e, u⟩ := i
  dsimp only at hI hstep hconn ⊢
  cases hstep with
  | idle hframe hempty hsame =>
    have hobs := observe_same (i := ⟨e, u⟩) h hsame hconn hframe
    have hledger : ledger (s', observe h s ⟨e, u⟩ s') =
        { ledger (s, h) with frames := h.frames ++ (frameOf e).toList } := by
      rw [hobs]
      simp only [ledger, hsame.keypadState, hsame.bufferList]
    rw [hledger]
    cases hf : frameOf e with
    | none =>
      rw [Option.toList_none, List.append_nil]
      exact .idle hf fun n hn => waiting_eq_nil_iff.mpr (count_eq_zero_of_queue (hempty n hn))
    | some v =>
      obtain ⟨b₀, b₁, rfl, rfl⟩ := frameOf_eq_some hf
      rw [hframe b₀ b₁ rfl]
      exact .unchanged (hframe b₀ b₁ rfl)
  | sent hne hfirst hk hb hr =>
    rw [observe_changed h hne hr, History.changed, if_neg (by rw [hb]; exact Nat.lt_irrefl _),
      attribute_replicate]
    simp only [ledger, hk, hb]
    exact .sent rfl hne hfirst
  | @held b₀ b₁ k hne hk2 hfirst hc hk hb hr =>
    have hlt : s.bufferList.count < s'.bufferList.count := by
      rw [hb, bufferEnqueue_eq hI.wf.wp_lt hI.wf.count_le]
      exact Nat.lt_succ_self _
    have hw : waiting s'.bufferList
        (Function.update h.owner s.bufferList.wp (h.change (combinedState (b₀, b₁)))) =
          waiting s.bufferList h.owner ++ [(h.change (combinedState (b₀, b₁)), k)] := by
      unfold waiting
      rw [hb, changeRing_bufferEnqueue hI.wf _ _ _ _ (by omega)]
      exact queue_push (hI.wf.changeRing _) hc _
    rw [observe_changed h hne hr, History.changed, if_pos hlt, History.attribute, List.map_append,
      List.map_replicate]
    simp only [ledger, hk, hw]
    exact .held k rfl hne hk2 hfirst
  | drained k q hq hk hs hb hr =>
    have hc := count_pos_of_queue hq
    have hw : waiting s'.bufferList h.owner = (waiting s.bufferList h.owner).tail := by
      unfold waiting
      rw [hb, changeRing_bufferRemove hI.wf]
      exact queue_pop_self (hI.wf.changeRing _) hc
    rw [observe_dequeued h hr, History.dequeued, attribute_replicate]
    simp only [ledger, hs, hw]
    exact .drained _ k _ (waiting_of_queue hI.wf h.owner hq) hk
  | kept k j q hq hk hs hb hr =>
    have hc := count_pos_of_queue hq
    have hw : waiting s'.bufferList h.owner =
        (h.owner s.bufferList.rp, k + j) :: (waiting s.bufferList h.owner).tail := by
      unfold waiting
      rw [hb, changeRing_bufferKeep _ _ (by omega)]
      exact queue_setHead (hI.wf.changeRing _) hc _
    rw [observe_dequeued h hr, History.dequeued, History.attribute, List.map_append,
      List.map_replicate]
    simp only [ledger, hs, hw]
    exact .kept _ k j _ (waiting_of_queue hI.wf h.owner hq) hk

/-! ### Runs on an uninterrupted connection -/

/-- A predicate on the firmware's own steps is not affected by watching them. -/
theorem along_watch {K : State sdk → Input → Prop} {c : Watched sdk} {es : List Input} :
    Along watch (fun c i => K c.1 i) c es ↔ Along step K c.1 es := along_observed

theorem watched_along {link : sdk.Link} {pm : sdk.Pm} {uart : sdk.Uart} {es : List Input}
    (hA : Along step Uninterrupted (boot link pm uart) es) :
    Along watch (fun c i => Uninterrupted c.1 i) (boot link pm uart, History.start) es :=
  along_watch.mpr hA

/-- **The induction rule for ledgers.** -/
theorem watched_inv {J : Ledger → Prop} (h0 : J ⟨0, [], [], 0, 0, []⟩)
    (hJ : ∀ answer l e l', J l → LedgerStep answer l e l' → J l') {link : sdk.Link} {pm : sdk.Pm}
    {uart : sdk.Uart} {es : List Input} (hA : Along step Uninterrupted (boot link pm uart) es) :
    J (ledger (watched link pm uart es)) := by
  have hinv : KeyInv (watched link pm uart es).1 ∧ J (ledger (watched link pm uart es)) :=
    Along.run_inv (I := fun c : Watched sdk => KeyInv c.1 ∧ J (ledger c))
      (fun c i h hi => ⟨h.1.step hi, hJ _ _ _ _ h.2 (watch_ledgerStep h.1 hi)⟩)
      (watched_along hA) ⟨keyInv_boot link pm uart, h0⟩
  exact hinv.2

/-- What the proofs carry along a watched run. -/
structure WatchInv (c : Watched sdk) : Prop where
  keys : KeyInv c.1
  reports : c.2.sent.map (·.report) = c.1.reports

theorem WatchInv.watch {c : Watched sdk} {i : Input} (h : WatchInv c) (hA : Uninterrupted c.1 i) :
    WatchInv (watch c i) :=
  ⟨h.keys.step hA, watch_reports i h.reports⟩

/-- **The exact condition for ledgers**: where `J` holds, a step that meets `K` keeps it, and
leads to a state with `P` just when it meets `K`. -/
theorem watched_iff {J : Ledger → Prop} {P : Watched sdk → Prop} {K : State sdk → Input → Prop}
    (h0 : J ⟨0, [], [], 0, 0, []⟩)
    (hJ : ∀ c i, WatchInv c → J (ledger c) → Uninterrupted c.1 i → K c.1 i → J (ledger (watch c i)))
    (hPK : ∀ c i, WatchInv c → J (ledger c) → Uninterrupted c.1 i → (P (watch c i) ↔ K c.1 i))
    {link : sdk.Link} {pm : sdk.Pm} {uart : sdk.Uart} {es : List Input}
    (hA : Along step Uninterrupted (boot link pm uart) es)
    (hP : P (boot link pm uart, .start)) :
    (∀ p, p <+: es → P (watched link pm uart p)) ↔ Along step K (boot link pm uart) es := by
  have hexact := states_iff_of_inv (I := fun c : Watched sdk => WatchInv c ∧ J (ledger c))
    (fun c i h hi hk => ⟨h.1.watch hi, hJ c i h.1 h.2 hi hk⟩)
    (fun c i h hi => hPK c i h.1 h.2 hi) (watched_along hA)
    ⟨⟨keyInv_boot link pm uart, rfl⟩, h0⟩ hP
  exact hexact.trans along_watch

/-- The head of what waits belongs to the slot that is read next. -/
theorem owner_of_waiting {c : Watched sdk} (hI : KeyInv c.1) {ch : Change} {k : ℕ}
    {w : List (Change × ℕ)} (h : (ledger c).waiting = (ch, k) :: w) :
    0 < c.1.bufferList.count ∧ c.2.owner c.1.bufferList.rp = ch := by
  cases hq : c.1.bufferList.queue with
  | nil =>
    have hnil : (ledger c).waiting = [] := waiting_eq_nil_iff.mpr (count_eq_zero_of_queue hq)
    rw [h] at hnil
    cases hnil
  | cons e q =>
    have hcons : (ledger c).waiting = _ := waiting_of_queue hI.wf c.2.owner hq
    rw [h] at hcons
    obtain ⟨hhead, -⟩ := List.cons.inj hcons
    exact ⟨count_pos_of_queue hq, (congrArg Prod.fst hhead).symm⟩

/-- A change handled while others wait leaves them in front. -/
theorem LedgerStep.waiting_of_ne {answer : UInt8 → UInt8 → ErrCode} {l l' : Ledger} {b₀ b₁ : UInt8}
    (h : LedgerStep answer l (.uart (.rxDone b₀ b₁)) l') (hne : combinedState (b₀, b₁) ≠ l.state) :
    l'.state = combinedState (b₀, b₁) ∧ l.waiting <+: l'.waiting := by
  cases h with
  | idle hf _ => cases hf
  | unchanged heq => exact absurd heq hne
  | sent hv _ _ => exact ⟨hv, List.prefix_rfl⟩
  | held k hv _ _ _ => exact ⟨hv, List.prefix_append _ _⟩

end SnesController
