import SnesController.Copies
import SnesController.Current
import SnesController.Delivery
import SnesController.Interrupted

/-!
# The last report, under interrupts

`send_key_scan_press_release` copies `keypad_state` byte by byte and then hands the copy over. A
frame that arrives in between sends its own report first, and the copy, older, goes out after it; or
half of the copy is older than the other half.

`preempted_lastReport` says what is enough for the central never to be left with an old state. On an
uninterrupted connection in report mode, whenever the main loop is idle and the buffer empty, the
last report the link took shows the last frame, in every run in which

* the link takes each report or answers `BLE_ERROR_NO_TX_PACKETS`,
* no more entries are held than there are slots,
* no interrupt enqueues while the count is being lowered, and
* no frame changes the key state between the first byte copied and the report handed over.
-/

namespace SnesController

open RingBuffer EventRun Interleaving

variable {sdk : Sdk}

/-- **The central sees the keypad as it is**: the last report the link took shows the key state.
Before the first one the central takes every button for released. -/
def UpToDate (s : State sdk) : Prop :=
  (acceptedData s.reports).getLast?.getD (statePayload 0) = statePayload s.keypadState

/-! ### An interrupt -/

/-- **What an interrupt does to the key path in report mode**, when the link takes a report or has
no room for it. -/
inductive InterruptEffect (s s' : State sdk) : Prop where
  | same : KeysSame s s' → InterruptEffect s s'
  | sent : s'.bufferList = s.bufferList →
      s'.reports = s.reports ++ List.replicate 3 (stateReport s'.keypadState .success) →
      InterruptEffect s s'
  | held (k : ℕ) : k ≤ 2 →
      s'.bufferList = (bufferEnqueue s.bufferList .mHids .keypadState 2 k).2 → InterruptEffect s s'

theorem interruptEffect {s : State sdk} {i : Input} (hi : i.evt.interrupts = true)
    (hmode : s.mInBootMode = false) (hanswers : Answered s (step s i)) :
    InterruptEffect s (step s i) := by
  obtain ⟨e, u⟩ := i
  cases e with
  | ble | hids | pm | adv => cases hi
  | adc e => exact .same (step_keysSame id)
  | uart e =>
    cases e with
    | error | txDone => exact .same (step_keysSame id)
    | rxDone b₀ b₁ =>
      by_cases hne : combinedState (b₀, b₁) = s.keypadState
      · rw [step_rxDone_of_eq u hne]
        exact .same ⟨rfl, rfl, rfl, rfl⟩
      have hsent := keysSend_cases (s := changedState s b₀ b₁) u .keypadState hmode
        (by omega : 2 + 1 < 65536)
      rw [step_rxDone_of_ne u hne] at hanswers ⊢
      generalize keysSend (changedState s b₀ b₁) u 2 .keypadState = t at hsent hanswers
      cases hsent with
      | sent l _ => exact .sent rfl rfl
      | held l k hk _ => exact .held k hk rfl
      | failed l k err es herr htx hk =>
        exact absurd (hanswers.not_failed (x := keyReport (changedState s b₀ b₁) .mHids
          .keypadState 2 err) rfl herr) htx

/-! ### What is left to send -/

/-- The entries that wait when the dequeue is through, if it removes the oldest. -/
def leftToSend (b : BufferList) : Statement → ℕ
  | .clear => b.count - 1
  | .sent f => if f.errCode = .success then b.count - 1 else b.count
  | next => (settle b next).count

/-- The locals of `send_key_scan_press_release` when it sends `keypad_state`. -/
structure SendFrame.OfState (f : SendFrame) : Prop extends f.Whole where
  pKeyPattern : f.pKeyPattern = .keypadState

/-- **What the locals hold**: the bytes copied are those of the key state. -/
def LocalsHold (s : State sdk) : Statement → Prop
  | .copy f i data => f.OfState ∧ i ≤ 2 ∧ data = s.load .keypadState i
  | .send f data => f.OfState ∧ data = leBytes s.keypadState
  | .sent f => f.errCode = .success ∨ f.errCode = .noTxPackets ∧ f.offset ≤ 2
  | .keep _ actualLen => actualLen ≤ 2
  | _ => True

/-- What the proofs carry. -/
structure ShownInv (m : Preempted sdk) : Prop where
  buffer : BufferInv m
  mode : m.state.mInBootMode = false
  entries : ∀ e ∈ (settled m).queue, ∃ k ≤ 2, e = stateEntry k
  txFlag : ∀ f, m.frame = some f → f.txFlag = true
  holds : LocalsHold m.state (nextStatement m)
  /-- The central is up to date, or there is more to send. -/
  shown : UpToDate m.state ∨ 0 < leftToSend m.state.bufferList (nextStatement m)

/-! ### The main loop's statements -/

/-- What a statement may change. -/
theorem statement_frame (s : State sdk) (f : DequeueFrame) :
    ∃ l rs b c pm wc es, (statement s f).state =
      { s.handed l rs with
        bufferList := b, mConnHandle := c, pm := pm, mIsWlChangedConnection := wc,
        errors := es } := by
  have hsame : ∀ b : BufferList, ∃ l rs b' c pm wc es, { s with bufferList := b } =
      { s.handed l rs with
        bufferList := b', mConnHandle := c, pm := pm, mIsWlChangedConnection := wc,
        errors := es } :=
    fun b => ⟨s.link, [], b, _, _, _, _, by rw [handed_nil]⟩
  obtain ⟨tx, u, next⟩ := f
  cases next with
  | send c data =>
    obtain ⟨l, rs, hs⟩ := sendCopied_handed s c data
    exact ⟨l, rs, _, _, _, _, _, hs⟩
  | rest =>
    cases tx with
    | true => exact hsame s.bufferList
    | false =>
      obtain ⟨pm, wc, es, hs⟩ :=
        whitelistUpdate_frame { s with mConnHandle := bleConnHandleInvalid }
      exact ⟨s.link, [], s.bufferList, _, pm, wc, es, hs.trans (by rw [handed_nil])⟩
  | copy | sent =>
    simp only [statement]
    split_ifs <;> exact hsame s.bufferList
  | _ => exact hsame _

theorem statement_mode (s : State sdk) (f : DequeueFrame) :
    (statement s f).state.mInBootMode = s.mInBootMode := by
  obtain ⟨l, rs, b, c, pm, wc, es, hs⟩ := statement_frame s f
  rw [hs]
  rfl

theorem statement_keypadState (s : State sdk) (f : DequeueFrame) :
    (statement s f).state.keypadState = s.keypadState := by
  obtain ⟨l, rs, b, c, pm, wc, es, hs⟩ := statement_frame s f
  rw [hs]
  rfl

theorem threadQueue_entries {q : List BufferEntry} {next : Statement}
    (h : ∀ e ∈ q, ∃ k ≤ 2, e = stateEntry k) (hkeep : ∀ p a, next = .keep p a → a ≤ 2) :
    ∀ e ∈ threadQueue q next, ∃ k ≤ 2, e = stateEntry k := by
  cases next with
  | clear => exact fun e he => h e (List.mem_of_mem_tail he)
  | keep p a =>
    have ha : a ≤ 2 := hkeep p a rfl
    cases q with
    | nil => exact h
    | cons x q =>
      intro e he
      rcases List.mem_cons.mp he with rfl | he
      · obtain ⟨k, -, rfl⟩ := h x List.mem_cons_self
        refine ⟨a, ha, ?_⟩
        rw [u8_of_lt (by omega)]
        rfl
      · exact h e (List.mem_cons_of_mem x he)
  | _ => exact h

/-- A report of the key state that the link takes. -/
theorem upToDate_taken {s : State sdk} {rs : List Report} {r : Report} (hs : s.reports = rs ++ [r])
    (hr : r.accepted) (hdata : r.data = statePayload s.keypadState) : UpToDate s := by
  have haccepted : acceptedData [r] = [r.data] := by
    simp [acceptedData, acceptedReports, hr]
  unfold UpToDate
  rw [hs, acceptedData_append, haccepted, List.getLast?_append, List.getLast?_singleton]
  exact hdata

/-- **The report of the state as it is** is handed over. -/
theorem sendCopied_shown {s : State sdk} {c : SendFrame} (hof : c.OfState)
    (hmode : s.mInBootMode = false) (hc : 0 < s.bufferList.count)
    (hanswers : Answered s (sendCopied s c (leBytes s.keypadState)).2) :
    LocalsHold (sendCopied s c (leBytes s.keypadState)).2
        (c.passed (sendCopied s c (leBytes s.keypadState)).1) ∧
      (UpToDate (sendCopied s c (leBytes s.keypadState)).2 ∨
        0 < leftToSend (sendCopied s c (leBytes s.keypadState)).2.bufferList
          (c.passed (sendCopied s c (leBytes s.keypadState)).1)) := by
  obtain ⟨⟨hp, hl, ho⟩, hk⟩ := hof
  obtain ⟨l, err, hsent⟩ : ∃ l err, sendCopied s c (leBytes s.keypadState) =
      (err, s.handed l [stateReport s.keypadState err]) := by
    unfold sendCopied
    rw [hmode, hp]
    exact ⟨_, _, rfl⟩
  rw [hsent] at hanswers ⊢
  have herr : err = .success ∨ err = .noTxPackets :=
    hanswers (stateReport s.keypadState err) (by simp [State.handed])
  have hu : u16 (c.offset + 1) = c.offset + 1 := u16_of_lt (by omega)
  unfold SendFrame.passed
  rcases herr with rfl | rfl
  · refine ⟨?_, .inl (upToDate_taken (r := stateReport s.keypadState .success) rfl rfl rfl)⟩
    rw [if_neg (not_not_intro rfl), hu]
    split_ifs with hmore
    · rw [hl] at hmore
      exact ⟨⟨⟨hp, hl, hmore⟩, hk⟩, Nat.zero_le _, (load_zero _ _).symm⟩
    · exact .inl rfl
  · have hne : ErrCode.noTxPackets ≠ .success := by decide
    rw [if_pos hne]
    exact ⟨.inr ⟨rfl, ho⟩, .inr hc⟩

/-- The oldest entry is a key change's. -/
theorem ShownInv.head {s : State sdk} {f : DequeueFrame} (h : ShownInv ⟨s, some f⟩)
    (hsettled : settled (⟨s, some f⟩ : Preempted sdk) = s.bufferList)
    (hc : 0 < s.bufferList.count) :
    ∃ k ≤ 2, s.bufferList.buffer s.bufferList.rp = stateEntry k := by
  have hwf := h.buffer.wf
  have hentries := h.entries
  rw [hsettled] at hwf hentries
  rw [queue_eq_head hwf hc] at hentries
  exact hentries _ List.mem_cons_self

/-- **A statement of the main loop.** -/
theorem ShownInv.statement {s : State sdk} {u : ErrCode} {next : Statement}
    (h : ShownInv ⟨s, some ⟨true, u, next⟩⟩)
    (hanswers : Answered s (SnesController.statement s ⟨true, u, next⟩).state) :
    LocalsHold (SnesController.statement s ⟨true, u, next⟩).state
        (nextStatement (SnesController.statement s ⟨true, u, next⟩)) ∧
      (UpToDate (SnesController.statement s ⟨true, u, next⟩).state ∨
        0 < leftToSend (SnesController.statement s ⟨true, u, next⟩).state.bufferList
          (nextStatement (SnesController.statement s ⟨true, u, next⟩))) := by
  have hrel : Relies s.bufferList next := h.buffer.relies
  have hle : s.bufferList.count ≤ maxBufferEntries + 1 := h.buffer.count_le
  have hholds : LocalsHold s next := h.holds
  have hshown : UpToDate s ∨ 0 < leftToSend s.bufferList next := h.shown
  cases next with
  | empty =>
    simp only [SnesController.statement, nextStatement]
    split_ifs
    · exact ⟨trivial, hshown⟩
    · exact ⟨trivial, hshown⟩
  | element => exact ⟨trivial, .inr hrel⟩
  | arguments p =>
    obtain ⟨rfl, hc⟩ := hrel
    obtain ⟨k, hk, hhead⟩ := h.head rfl hc
    simp only [SnesController.statement, nextStatement]
    rw [hhead]
    exact ⟨⟨⟨⟨rfl, rfl, hk⟩, rfl⟩, Nat.zero_le 2, rfl⟩, .inr hc⟩
  | copy c i data =>
    obtain ⟨hof, hi, rfl⟩ := hholds
    simp only [SnesController.statement, nextStatement]
    rw [hof.pKeyPattern, hof.dataLen]
    split_ifs with hmore
    · exact ⟨⟨hof, hmore, (load_succ s .keypadState i).symm⟩, .inr hrel.2⟩
    · obtain rfl : i = 2 := by omega
      exact ⟨⟨hof, rfl⟩, .inr hrel.2⟩
  | send c data =>
    obtain ⟨hof, rfl⟩ := hholds
    exact sendCopied_shown hof h.mode hrel.2 hanswers
  | sent c =>
    obtain ⟨hp, hc⟩ := hrel
    obtain ⟨k, -, hhead⟩ := h.head rfl hc
    simp only [SnesController.statement, nextStatement]
    rw [hp, hhead]
    rcases hholds with herr | ⟨herr, ho⟩
    · rw [if_neg (by rw [herr]; rintro ⟨⟨⟩, -⟩)]
      rw [leftToSend, if_pos herr] at hshown
      exact ⟨trivial, hshown⟩
    · rw [if_pos ⟨herr, ho⟩]
      exact ⟨ho, .inr hc⟩
  | keep p a => exact ⟨trivial, .inr hrel.2⟩
  | clear =>
    refine ⟨trivial, ?_⟩
    show UpToDate s ∨ 0 < u8 (s.bufferList.count + 255)
    rw [u8_pred hrel hle]
    exact hshown
  | advance | load | store | wrap => exact ⟨trivial, hshown⟩
  | rest => exact ⟨trivial, hshown⟩

theorem statement_txFlag {s : State sdk} {f g : DequeueFrame} (h : (statement s f).frame = some g) :
    g.txFlag = f.txFlag := by
  obtain ⟨tx, u, next⟩ := f
  cases next with
  | copy | sent =>
    simp only [statement] at h
    split_ifs at h <;> cases h <;> rfl
  | rest => cases h
  | _ => cases h; rfl

theorem ShownInv.thread {m : Preempted sdk} (h : ShownInv m)
    (hanswers : Answered m.state ((firmware sdk).slice m .thread).state) :
    ShownInv ((firmware sdk).slice m .thread) := by
  obtain ⟨s, frame⟩ := m
  cases frame with
  | none => exact h
  | some f =>
    obtain ⟨tx, u, next⟩ := f
    obtain rfl : tx = true := h.txFlag _ rfl
    obtain ⟨hbuffer, hqueue⟩ := h.buffer.thread
    obtain ⟨hholds, hshown⟩ := h.statement hanswers
    refine ⟨hbuffer, ?_, ?_, fun g hg => statement_txFlag hg, hholds, hshown⟩
    · exact (statement_mode s _).trans h.mode
    · rw [hqueue]
      refine threadQueue_entries h.entries ?_
      rintro p a ⟨⟩
      exact h.holds

/-! ### Events -/

/-- Part of the pattern is copied, and the report not handed over yet. -/
def Statement.copying : Statement → Bool
  | .copy _ i _ => 0 < i
  | .send _ _ => true
  | _ => false

/-- **No copy is torn or overtaken**: from the first byte copied until the report is handed over, no
frame changes the key state. -/
def CopyKept (m : Preempted sdk) : Slice Input → Prop
  | .thread => True
  | .event i => (nextStatement m).copying = true →
      ((firmware sdk).slice m (.event i)).state.keypadState = m.state.keypadState

instance (m : Preempted sdk) : (sl : Slice Input) → Decidable (CopyKept m sl)
  | .thread => isTrue trivial
  | .event _ => inferInstanceAs (Decidable (_ = true → _ = _))

/-- The bytes copied stay those of the key state. -/
theorem LocalsHold.congr {s s' : State sdk} {next : Statement} (h : LocalsHold s next)
    (hkept : next.copying = true → s'.keypadState = s.keypadState) : LocalsHold s' next := by
  cases next with
  | copy f i data =>
    obtain ⟨hof, hi, rfl⟩ := h
    refine ⟨hof, hi, ?_⟩
    rcases Nat.eq_zero_or_pos i with rfl | hpos
    · rfl
    · simp only [State.load]
      rw [hkept (decide_eq_true hpos)]
  | send f data =>
    obtain ⟨hof, rfl⟩ := h
    exact ⟨hof, by rw [hkept rfl]⟩
  | _ => exact h

/-- With two entries there is more to send, whatever the main loop is about to remove. -/
theorem leftToSend_pos {b : BufferList} {next : Statement} (hrel : Relies b next)
    (hle : b.count ≤ maxBufferEntries + 1) (hc : 1 < b.count) : 0 < leftToSend b next := by
  have hpred : 0 < u8 (b.count + 255) := by
    rw [u8_pred (by omega) hle]
    omega
  cases next with
  | clear => exact Nat.sub_pos_of_lt hc
  | sent f =>
    show 0 < if f.errCode = .success then b.count - 1 else b.count
    split_ifs
    · exact Nat.sub_pos_of_lt hc
    · exact Nat.zero_lt_of_lt hc
  | advance | load => exact hpred
  | store count =>
    obtain ⟨rfl, -⟩ := hrel
    exact hpred
  | _ => exact Nat.zero_lt_of_lt hc

/-- Where the list may be empty, the main loop is not about to remove anything. -/
theorem leftToSend_of_empty {b b' : BufferList} {next : Statement} (hrel : Relies b next)
    (hc : b.count = 0) : leftToSend b' next = b'.count := by
  cases next with
  | empty | wrap | rest => rfl
  | element | clear | advance | load => exact absurd hc (Nat.ne_of_gt hrel)
  | arguments | keep | copy | send | sent | store => exact absurd hc (Nat.ne_of_gt hrel.2)

/-- **After an enqueue there is more to send.** -/
theorem leftToSend_enqueue {b : BufferList} {next : Statement} {k : ℕ}
    (hwp : b.wp < maxBufferEntries) (hle : b.count ≤ maxBufferEntries + 1) (hrel : Relies b next)
    (hrel' : Relies (bufferEnqueue b .mHids .keypadState 2 k).2 next)
    (hle' : (bufferEnqueue b .mHids .keypadState 2 k).2.count ≤ maxBufferEntries + 1) :
    0 < leftToSend (bufferEnqueue b .mHids .keypadState 2 k).2 next := by
  rcases Nat.lt_or_ge maxBufferEntries b.count with hfull | hroom
  · rw [bufferEnqueue_full (Nat.le_antisymm hle hfull)]
    exact leftToSend_pos hrel hle (Nat.lt_of_le_of_lt (by decide) hfull)
  · rw [bufferEnqueue_eq hwp hroom] at hrel' hle' ⊢
    rcases Nat.eq_zero_or_pos b.count with hc | hc
    · rw [leftToSend_of_empty hrel hc]
      exact Nat.succ_pos _
    · exact leftToSend_pos hrel' hle' (Nat.succ_lt_succ hc)

/-- The entry an interrupt enqueues is a key change's. -/
theorem queueAfter_entries {q : List BufferEntry} {m m' : Preempted sdk} {i : Input} {k : ℕ}
    (h : ∀ e ∈ q, ∃ k ≤ 2, e = stateEntry k) (hm : BufferInv m) (hk : k ≤ 2)
    (hb : m'.state.bufferList =
      (bufferEnqueue m.state.bufferList .mHids .keypadState 2 k).2) :
    ∀ e ∈ queueAfter q m (.event i) m', ∃ k ≤ 2, e = stateEntry k := by
  intro e he
  unfold queueAfter at he
  dsimp only at he
  split_ifs at he with hmore
  · rcases List.mem_append.mp he with he | he
    · exact h e he
    rcases Nat.lt_or_ge maxBufferEntries m.state.bufferList.count with hfull | hroom
    · rw [hb, bufferEnqueue_full (Nat.le_antisymm hm.count_le hfull)] at hmore
      exact absurd hmore (Nat.lt_irrefl _)
    · rw [hb, bufferEnqueue_eq hm.wp_lt hroom, List.mem_singleton] at he
      dsimp only at he
      rw [Function.update_self] at he
      refine ⟨k, hk, he.trans ?_⟩
      rw [u8_of_lt (by omega)]
      rfl
  · exact h e he

/-- An event that neither ends the connection nor turns boot mode on. -/
def KeepsConnection : Slice Input → Prop
  | .thread => True
  | .event i => i.evt ≠ .ble .disconnected ∧ i.evt ≠ .hids .bootModeEntered

instance : (sl : Slice Input) → Decidable (KeepsConnection sl)
  | .thread => isTrue trivial
  | .event _ => inferInstanceAs (Decidable (_ ≠ _ ∧ _ ≠ _))

/-- **A slice of an uninterrupted connection in report mode**: the link takes every report or has no
room for it, and no more than five entries are held. -/
structure Steady (m : Preempted sdk) (sl : Slice Input) : Prop where
  event : KeepsConnection sl
  answers : Answered m.state ((firmware sdk).slice m sl).state
  fits : SettledFits m sl

instance (s s' : State sdk) : Decidable (Answered s s') :=
  inferInstanceAs (Decidable (∀ r ∈ s'.reports.drop s.reports.length, _ ∨ _))

instance (m : Preempted sdk) (sl : Slice Input) : Decidable (Steady m sl) :=
  decidable_of_iff (KeepsConnection sl ∧ Answered m.state ((firmware sdk).slice m sl).state ∧
    SettledFits m sl) ⟨fun ⟨h₁, h₂, h₃⟩ => ⟨h₁, h₂, h₃⟩, fun ⟨h₁, h₂, h₃⟩ => ⟨h₁, h₂, h₃⟩⟩

/-- **An event**, whether it interrupts the main loop or not. -/
theorem ShownInv.event {m : Preempted sdk} {i : Input} (h : ShownInv m)
    (hA : Steady m (.event i)) (hcount : CountKept m (.event i)) (hcopy : CopyKept m (.event i)) :
    ShownInv ((firmware sdk).slice m (.event i)) := by
  obtain ⟨⟨hconnected, hreport⟩, hanswers, hfits⟩ := hA
  obtain ⟨hbuffer, hqueue⟩ := h.buffer.slice hfits hcount
  have htaken := slice_taken m i
  change (nextStatement m).copying = true → _ = _ at hcopy
  generalize (firmware sdk).slice m (.event i) = m' at htaken hanswers hbuffer hqueue hcopy ⊢
  have hentries : m'.state.bufferList = m.state.bufferList →
      ∀ e ∈ (settled m').queue, ∃ k ≤ 2, e = stateEntry k := by
    intro hb
    rw [hqueue, queueAfter, hb, if_neg (Nat.lt_irrefl _)]
    exact h.entries
  cases htaken with
  | busy => exact h
  | begun tx hidle _ htx =>
    have hshown := h.shown
    rw [nextStatement, hidle] at hshown
    refine ⟨hbuffer, h.mode, hentries rfl, ?_, trivial, hshown⟩
    rintro f ⟨⟩
    cases tx with
    | true => rfl
    | false => exact absurd (htx rfl) hconnected
  | whole hidle hu ht hd =>
    obtain ⟨hb, hk, hr⟩ := whole_keysSame m.state hu ht hd
    have hshown := h.shown
    rw [nextStatement, hidle] at hshown
    refine ⟨hbuffer, step_mode hreport h.mode, hentries hb, ?_, ?_, ?_⟩
    · rintro f ⟨⟩
    · show LocalsHold _ .rest
      trivial
    · unfold UpToDate at hshown ⊢
      rw [hr, hk, hb]
      exact hshown
  | interrupt hi =>
    have hmode := step_mode hreport h.mode
    have hholds := h.holds.congr hcopy
    cases interruptEffect hi h.mode hanswers with
    | same hs =>
      refine ⟨hbuffer, hmode, hentries hs.bufferList, h.txFlag, hholds, ?_⟩
      have hshown := h.shown
      unfold UpToDate at hshown ⊢
      dsimp only
      rw [hs.reports, hs.keypadState, hs.bufferList]
      exact hshown
    | sent hb hr =>
      refine ⟨hbuffer, hmode, hentries hb, h.txFlag, hholds, .inl ?_⟩
      rw [List.replicate_succ', ← List.append_assoc] at hr
      exact upToDate_taken hr rfl rfl
    | held k hk hb =>
      refine ⟨hbuffer, hmode, ?_, h.txFlag, hholds, .inr ?_⟩
      · rw [hqueue]
        exact queueAfter_entries h.entries h.buffer hk hb
      · have hrel' := hbuffer.relies
        have hle' := hbuffer.count_le
        dsimp only at hrel' hle' ⊢
        rw [hb] at hrel' hle' ⊢
        exact leftToSend_enqueue h.buffer.wp_lt h.buffer.count_le h.buffer.relies hrel' hle'

/-! ### Runs -/

/-- Only an interrupt receives a frame. -/
theorem slice_keypadState (m : Preempted sdk) (i : Input) :
    ((firmware sdk).slice m (.event i)).state.keypadState =
      (frameOf i.evt).getD m.state.keypadState := by
  have hframe : i.evt.interrupts = false → frameOf i.evt = none := by
    intro hi
    generalize i.evt = e at hi
    cases e with
    | uart | adc => cases hi
    | _ => rfl
  have htaken := slice_taken m i
  generalize (firmware sdk).slice m (.event i) = m' at htaken ⊢
  cases htaken with
  | busy hi =>
    rw [hframe hi]
    rfl
  | begun tx _ hi =>
    rw [hframe hi]
    rfl
  | interrupt | whole => exact step_keypadState m.state i

/-- However the run is cut into slices, `keypad_state` is that of the last frame. -/
theorem preempted_keypadState (link : sdk.Link) (pm : sdk.Pm) (uart : sdk.Uart)
    (slices : List (Slice Input)) :
    (run (firmware sdk).slice (preemptedBoot link pm uart) slices).state.keypadState =
      currentState (events slices) := by
  induction slices using List.reverseRecOn with
  | nil => rfl
  | append_singleton slices sl ih =>
    rw [run_concat]
    generalize run (firmware sdk).slice (preemptedBoot link pm uart) slices = m at ih ⊢
    cases sl with
    | event i => rw [slice_keypadState, events_concat_event, currentState_concat, ih]
    | thread =>
      rw [events_concat_thread, ← ih]
      obtain ⟨s, frame⟩ := m
      cases frame with
      | none => rfl
      | some f => exact statement_keypadState s f

theorem shownInv_boot (link : sdk.Link) (pm : sdk.Pm) (uart : sdk.Uart) :
    ShownInv (preemptedBoot link pm uart) := by
  obtain ⟨hwf, hmode, hentries⟩ := keyInv_boot link pm uart
  have hreports : (boot link pm uart).reports = [] := rfl
  have hstate : (boot link pm uart).keypadState = 0 := rfl
  refine ⟨⟨hwf, Nat.zero_le _, trivial⟩, hmode, hentries, ?_, trivial, .inl ?_⟩
  · rintro f ⟨⟩
  · show (acceptedData (boot link pm uart).reports).getLast?.getD _ = _
    rw [hreports]
    exact congrArg statePayload hstate.symm

/-- **No old state is left with the central**: on an uninterrupted connection in report mode, over
a link that takes each report or answers `BLE_ERROR_NO_TX_PACKETS` (`Answered`), with no more than
five entries held (`SettledFits`), however the statements of the main loop and the interrupts follow
one another: if no interrupt enqueues while the count is being lowered, and no frame changes the key
state from the first byte copied until the report is handed over, then whenever the main loop is
idle and the buffer empty, the last report the link took shows the state of the last frame. -/
theorem preempted_lastReport (link : sdk.Link) (pm : sdk.Pm) (uart : sdk.Uart)
    {slices : List (Slice Input)}
    (hA : Along (firmware sdk).slice Steady (preemptedBoot link pm uart) slices)
    (hcount : Along (firmware sdk).slice CountKept (preemptedBoot link pm uart) slices)
    (hcopy : Along (firmware sdk).slice CopyKept (preemptedBoot link pm uart) slices)
    (hidle : (run (firmware sdk).slice (preemptedBoot link pm uart) slices).frame = none)
    (hempty : (run (firmware sdk).slice (preemptedBoot link pm uart)
      slices).state.bufferList.count = 0) :
    (acceptedData (run (firmware sdk).slice (preemptedBoot link pm uart)
        slices).state.reports).getLast?.getD (statePayload 0) =
      statePayload (currentState (events slices)) := by
  have hstart := shownInv_boot link pm uart
  have hinv : ShownInv (run (firmware sdk).slice (preemptedBoot link pm uart) slices) := by
    refine Along.run_inv (I := ShownInv)
      (A := fun m sl => Steady m sl ∧ CountKept m sl ∧ CopyKept m sl) ?_
      (along_and.mpr ⟨hA, along_and.mpr ⟨hcount, hcopy⟩⟩) hstart
    rintro m sl hm ⟨hsteady, hcounted, hcopied⟩
    cases sl with
    | thread => exact hm.thread hsteady.answers
    | event i => exact hm.event hsteady hcounted hcopied
  rw [← preempted_keypadState link pm uart slices]
  have hshown := hinv.shown
  rw [nextStatement, hidle] at hshown
  exact hshown.resolve_right fun hpos => Nat.ne_of_gt hpos hempty

/-- The last copy of a change, a frame arriving in the middle of it that repeats the state. -/
theorem preempted_lastReport_repeated :
    (acceptedData (run (firmware (device 2)).slice
        (preemptedBoot (deviceLink 2) (devicePm 2) (deviceUart 2))
        ([.event (frame 0 1), .event (txComplete 2)] ++ List.replicate 4 .thread ++
          .event (frame 0 1) :: List.replicate 10 .thread)).state.reports).getLast?.getD
            (statePayload 0) =
      statePayload (currentState (events
        ([.event (frame 0 1), .event (txComplete 2)] ++ List.replicate 4 .thread ++
          .event (frame 0 1) :: List.replicate 10 .thread))) :=
  preempted_lastReport (deviceLink 2) (devicePm 2) (deviceUart 2) (by decide) (by decide)
    (by decide) (by decide) (by decide)

-- A frame between the copy and the report: the report is older than those of the frame.
example :
    (run (firmware (device 5)).slice (preemptedBoot (deviceLink 5) (devicePm 5) (deviceUart 5))
        ([.event (frame 0 1), .event (frame 0 2), .event (txComplete 5)] ++
          List.replicate 6 .thread ++
            .event (frame 0 3) :: List.replicate 8 .thread)).frame.isNone ∧
      (acceptedData (run (firmware (device 5)).slice
        (preemptedBoot (deviceLink 5) (devicePm 5) (deviceUart 5))
        ([.event (frame 0 1), .event (frame 0 2), .event (txComplete 5)] ++
          List.replicate 6 .thread ++
            .event (frame 0 3) :: List.replicate 8 .thread)).state.reports).getLast? =
          some (statePayload 2) := by
  decide

end SnesController
