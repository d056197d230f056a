import SnesController.Preemption
import SnesController.ReportMode

/-!
# The key buffer under interrupts

`buffer_dequeue` in the main loop and `buffer_enqueue` in the interrupt share the list's count.
`count++` runs in one piece. `count--` does not: an entry enqueued between its read and its write is
written to its slot, and `wp` moves on, but the count forgets it.

`settled` is the list as it will be when the removal the main loop is in is through.
`preempted_fifo_iff` says that it is the queue of the entries enqueued and not yet dequeued, at
every moment of a run, exactly when no interrupt enqueues between that read and that write.
Everything else may be interrupted anywhere.
-/

namespace SnesController

open RingBuffer EventRun Interleaving

variable {sdk : Sdk}

/-- The read index after the test for the end of the array. -/
def wrapped (rp : ℕ) : ℕ := if rp = maxBufferEntries then 0 else rp

/-- The list as it will be when the removal is through. -/
def settle (b : BufferList) : Statement → BufferList
  | .advance => { b with rp := wrapped (u8 (b.rp + 1)), count := u8 (b.count + 255) }
  | .load => { b with rp := wrapped b.rp, count := u8 (b.count + 255) }
  | .store count => { b with rp := wrapped b.rp, count := u8 (count + 255) }
  | .wrap => { b with rp := wrapped b.rp }
  | _ => b

/-- The statement that is next; an idle main loop is at the end of a handler. -/
def nextStatement (m : Preempted sdk) : Statement :=
  match m.frame with
  | none => .rest
  | some f => f.next

/-- **The list, settled.** -/
def settled (m : Preempted sdk) : BufferList := settle m.state.bufferList (nextStatement m)

/-- What the main loop relies on before a statement. -/
def Relies (b : BufferList) : Statement → Prop
  | .empty | .wrap | .rest => True
  | .element | .clear | .advance | .load => 0 < b.count
  | .arguments p | .keep p _ => p = b.rp ∧ 0 < b.count
  | .copy f _ _ | .send f _ | .sent f => f.pElement = b.rp ∧ 0 < b.count
  | .store count => count = b.count ∧ 0 < b.count

/-- A transmission of two bytes for the HID service, at most two passes done. -/
structure SendFrame.Whole (f : SendFrame) : Prop where
  pHids : f.pHids = .mHids
  dataLen : f.dataLen = 2
  offset_le : f.offset ≤ 2

/-! ### The main loop's statements -/

/-- What a statement makes of the list, settled: only two of them change it. -/
def threadBuffer (b : BufferList) : Statement → BufferList
  | .clear => bufferRemove b
  | .keep _ actualLen => bufferKeep b actualLen
  | next => settle b next

/-- A count less one. -/
theorem u8_pred {count : ℕ} (hpos : 0 < count) (hle : count ≤ maxBufferEntries + 1) :
    u8 (count + 255) = count - 1 := by
  unfold maxBufferEntries at hle
  rw [show count + 255 = count - 1 + 2 ^ 8 by omega]
  exact (Nat.add_mod_right _ _).trans (Nat.mod_eq_of_lt (by omega))

theorem sendCopied_handed (s : State sdk) (f : SendFrame) (data : List UInt8) :
    ∃ l rs, (sendCopied s f data).2 = s.handed l rs := by
  unfold sendCopied
  split_ifs
  · exact ⟨s.link, [], (handed_nil s).symm⟩
  · exact ⟨_, _, rfl⟩

theorem afterDequeue_keysSame (txFlag : Bool) (s : State sdk) :
    KeysSame s (afterDequeue txFlag s) := by
  cases txFlag with
  | true => exact ⟨rfl, rfl, rfl, rfl⟩
  | false =>
    obtain ⟨hb, hk, hm, hr⟩ :=
      whitelistUpdate_keysSame { s with mConnHandle := bleConnHandleInvalid }
    exact ⟨hb, hk, hm, hr⟩

/-- The pass goes on at a statement that relies on the same. -/
theorem relies_passed {b : BufferList} {f : SendFrame} (h : f.pElement = b.rp ∧ 0 < b.count)
    (errCode : ErrCode) : Relies b (f.passed errCode) := by
  unfold SendFrame.passed
  split_ifs <;> exact h

theorem settle_passed (b : BufferList) (f : SendFrame) (errCode : ErrCode) :
    settle b (f.passed errCode) = b := by
  unfold SendFrame.passed
  split_ifs <;> rfl

/-- **A statement of the main loop**, whatever came between it and the one before. -/
theorem settled_statement {s : State sdk} {f : DequeueFrame}
    (hle : s.bufferList.count ≤ maxBufferEntries + 1) (hrel : Relies s.bufferList f.next) :
    settled (statement s f) = threadBuffer s.bufferList f.next := by
  obtain ⟨tx, u, next⟩ := f
  dsimp only at hrel ⊢
  cases next with
  | empty =>
    simp only [statement, settled]
    split_ifs <;> rfl
  | element =>
    simp only [statement, settled]
    split_ifs <;> rfl
  | arguments | load | store | wrap => rfl
  | copy c i data =>
    simp only [statement]
    split_ifs <;> rfl
  | send c data =>
    obtain ⟨l, rs, hs⟩ := sendCopied_handed s c data
    simp only [statement, settled, nextStatement]
    rw [settle_passed, hs]
    rfl
  | sent c =>
    simp only [statement]
    split_ifs <;> rfl
  | keep p a =>
    rw [hrel.1]
    rfl
  | clear =>
    have hcount : u8 (s.bufferList.count + 255) = u8 (s.bufferList.count - 1) := by
      rw [u8_pred hrel hle, u8_of_lt (by unfold maxBufferEntries at hle; omega)]
    simp only [statement, settled, settle, threadBuffer, bufferRemove, bufferElementInit]
    rw [hcount]
    rfl
  | advance => rfl
  | rest => exact (afterDequeue_keysSame tx s).bufferList

/-- What the proofs carry. -/
structure BufferInv (m : Preempted sdk) : Prop where
  wf : (settled m).WF
  count_le : m.state.bufferList.count ≤ maxBufferEntries + 1
  relies : Relies m.state.bufferList (nextStatement m)

/-- After a statement the main loop may rely on what the next one needs. -/
theorem statement_relies {s : State sdk} {f : DequeueFrame}
    (hle : s.bufferList.count ≤ maxBufferEntries + 1) (hrel : Relies s.bufferList f.next) :
    (statement s f).state.bufferList.count ≤ maxBufferEntries + 1 ∧
      Relies (statement s f).state.bufferList (nextStatement (statement s f)) := by
  obtain ⟨tx, u, next⟩ := f
  dsimp only at hrel ⊢
  cases next with
  | empty =>
    refine ⟨hle, ?_⟩
    show Relies s.bufferList (if bufferListEmpty s.bufferList = true then .rest else .element)
    split_ifs with hempty
    · trivial
    · exact Nat.pos_of_ne_zero fun hc => hempty (bufferListEmpty_iff.mpr hc)
  | element =>
    refine ⟨hle, ?_⟩
    show Relies s.bufferList (if tx = true then .arguments s.bufferList.rp else .clear)
    split_ifs
    · exact ⟨rfl, hrel⟩
    · exact hrel
  | copy c i data =>
    simp only [statement]
    split_ifs <;> exact ⟨hle, hrel⟩
  | send c data =>
    obtain ⟨l, rs, hs⟩ := sendCopied_handed s c data
    simp only [statement]
    rw [hs]
    exact ⟨hle, relies_passed hrel _⟩
  | sent c =>
    simp only [statement]
    split_ifs
    · exact ⟨hle, hrel⟩
    · exact ⟨hle, hrel.2⟩
  | arguments | clear | advance => exact ⟨hle, hrel⟩
  | load => exact ⟨hle, rfl, hrel⟩
  | store count =>
    obtain ⟨rfl, hpos⟩ := hrel
    refine ⟨?_, trivial⟩
    show u8 (s.bufferList.count + 255) ≤ _
    rw [u8_pred hpos hle]
    omega
  | keep | wrap => exact ⟨hle, trivial⟩
  | rest =>
    refine ⟨?_, trivial⟩
    show (afterDequeue tx s).bufferList.count ≤ _
    rw [(afterDequeue_keysSame tx s).bufferList]
    exact hle

/-! ### Events -/

/-- **What an event does**: it comes while the main loop is busy, it is an interrupt, it begins a
dequeue, or the main loop handles it in one piece. -/
inductive Taken (m : Preempted sdk) (i : Input) : Preempted sdk → Prop where
  | busy : i.evt.interrupts = false → Taken m i m
  | interrupt : i.evt.interrupts = true → Taken m i ⟨step m.state i, m.frame⟩
  | begun (txFlag : Bool) : m.frame = none →
      i.evt.interrupts = false → (txFlag = false → i.evt = .ble .disconnected) →
      Taken m i ⟨deliver m.state i.evt, some ⟨txFlag, i.uninit, .empty⟩⟩
  | whole : m.frame = none → (∀ b₀ b₁, i.evt ≠ .uart (.rxDone b₀ b₁)) →
      (∀ n, i.evt ≠ .ble (.txComplete n)) → i.evt ≠ .ble .disconnected →
      Taken m i ⟨step m.state i, none⟩

theorem slice_taken (m : Preempted sdk) (i : Input) :
    Taken m i ((firmware sdk).slice m (.event i)) := by
  obtain ⟨s, frame⟩ := m
  cases hi : i.evt.interrupts with
  | true =>
    rw [Program.slice_interrupt (P := firmware sdk) hi]
    exact .interrupt hi
  | false =>
    cases frame with
    | some f =>
      rw [Program.slice_busy (P := firmware sdk) hi]
      exact .busy hi
    | none =>
      rw [Program.slice_dispatch (P := firmware sdk) hi]
      obtain ⟨e, u⟩ := i
      cases e with
      | uart e | adc e => cases hi
      | hids e | pm e | adv e => exact .whole rfl nofun nofun nofun
      | ble e =>
        cases e with
        | txComplete n => exact .begun true rfl rfl nofun
        | disconnected => exact .begun false rfl rfl fun _ => rfl
        | _ => exact .whole rfl nofun nofun nofun

/-- An interrupt leaves the list alone, or enqueues. -/
theorem interrupt_bufferList (s : State sdk) {i : Input} (hi : i.evt.interrupts = true) :
    (step s i).bufferList = s.bufferList ∨
      ∃ k, (step s i).bufferList = (bufferEnqueue s.bufferList .mHids .keypadState 2 k).2 := by
  have heff := step_keyEffect s i
  generalize step s i = s' at heff ⊢
  generalize i.evt = e at heff hi
  cases heff with
  | other _ hs | unchanged _ hs => exact .inl hs.bufferList
  | changed _ _ _ _ _ hb => exact hb
  | mode | idle | dequeued | flushed | dropped => cases hi

/-- What the main loop handles in one piece leaves the list alone. -/
theorem whole_keysSame (s : State sdk) {i : Input} (hu : ∀ b₀ b₁, i.evt ≠ .uart (.rxDone b₀ b₁))
    (ht : ∀ n, i.evt ≠ .ble (.txComplete n)) (hd : i.evt ≠ .ble .disconnected) :
    (step s i).bufferList = s.bufferList ∧ (step s i).keypadState = s.keypadState ∧
      (step s i).reports = s.reports := by
  have heff := step_keyEffect s i
  generalize step s i = s' at heff ⊢
  generalize i.evt = e at heff hu ht hd
  cases heff with
  | other _ hs => exact ⟨hs.bufferList, hs.keypadState, hs.reports⟩
  | mode hb hk hr => exact ⟨hb, hk, hr⟩
  | unchanged | changed => exact absurd rfl (hu _ _)
  | idle | dequeued => exact absurd rfl (ht _)
  | flushed | dropped => exact absurd rfl hd

/-- The count has been read to be lowered, and not yet been written. -/
def Statement.counting : Statement → Bool
  | .store _ => true
  | _ => false

/-- **An enqueue between the statements of the main loop**: unless the count is being lowered, the
settled list gets the entry. -/
theorem ring_settle_enqueue {b : BufferList} {next : Statement} (hwf : (settle b next).WF)
    (hrel : Relies b next) (hroom : b.count ≤ maxBufferEntries) (hnext : next.counting = false)
    (pHids : HidsPtr) (p : PatternPtr) (patternLen offset : ℕ) :
    (settle (bufferEnqueue b pHids p patternLen offset).2 next).ring =
      (settle b next).ring.push maxBufferEntries ⟨u8 offset, u8 patternLen, p, pHids⟩ := by
  have hwp : b.wp < maxBufferEntries := by
    have hlt := hwf.wp_lt
    cases next <;> exact hlt
  rw [bufferEnqueue_eq hwp hroom]
  cases next with
  | store => cases hnext
  | advance | load =>
    simp only [settle, BufferList.ring, RingBuffer.push]
    rw [u8_pred (Nat.succ_pos _) (Nat.succ_le_succ hroom), u8_pred hrel (Nat.le_succ_of_le hroom),
      Nat.sub_add_cancel hrel]
    rfl
  | _ => rfl

/-! ### The queue kept beside the run -/

/-- What a statement does to the queue: two of them end a dequeue, and drop the oldest entry or keep
the rest of it. -/
def threadQueue (q : List BufferEntry) : Statement → List BufferEntry
  | .clear => q.tail
  | .keep _ actualLen => q.modifyHead fun e => { e with dataOffset := u8 actualLen }
  | _ => q

/-- **What the queue is to be after a slice**: an enqueue appends the entry it has written. -/
def queueAfter (q : List BufferEntry) (m : Preempted sdk) (sl : Slice Input) (m' : Preempted sdk) :
    List BufferEntry :=
  match sl with
  | .thread => threadQueue q (nextStatement m)
  | .event _ =>
    if m.state.bufferList.count < m'.state.bufferList.count then
      q ++ [m'.state.bufferList.buffer m.state.bufferList.wp]
    else q

/-- The settled list holds no more entries than there are slots. -/
def SettledFits (m : Preempted sdk) (sl : Slice Input) : Prop :=
  (settled ((firmware sdk).slice m sl)).count ≤ maxBufferEntries

instance (m : Preempted sdk) (sl : Slice Input) : Decidable (SettledFits m sl) :=
  inferInstanceAs (Decidable (_ ≤ _))

/-- **No count is lost**: no interrupt enqueues between the read of the count and its write. -/
def CountKept (m : Preempted sdk) : Slice Input → Prop
  | .thread => True
  | .event i => (nextStatement m).counting = true →
      ((firmware sdk).slice m (.event i)).state.bufferList.count = m.state.bufferList.count

instance (m : Preempted sdk) : (sl : Slice Input) → Decidable (CountKept m sl)
  | .thread => isTrue trivial
  | .event _ => inferInstanceAs (Decidable (_ = true → _ = _))

/-- The oldest entry is in the slot at the read index. -/
theorem queue_eq_head {b : BufferList} (hwf : b.WF) (hc : 0 < b.count) :
    b.queue = b.buffer b.rp :: b.queue.tail := by
  have hcons := RingBuffer.queue_eq_cons hwf hc
  unfold BufferList.queue
  rw [hcons]
  rfl

/-- The statements do so. -/
theorem queue_threadBuffer {b : BufferList} {next : Statement} (hwf : (settle b next).WF)
    (hrel : Relies b next) :
    (threadBuffer b next).WF ∧
      (threadBuffer b next).queue = threadQueue (settle b next).queue next := by
  cases next with
  | clear => exact queue_bufferRemove hwf hrel
  | keep p a =>
    obtain ⟨rfl, hc⟩ := hrel
    change b.WF at hwf
    refine ⟨RingBuffer.WF.setHead hwf _, (RingBuffer.queue_setHead hwf hc _).trans ?_⟩
    show _ = b.queue.modifyHead _
    rw [queue_eq_head hwf hc]
    rfl
  | _ => exact ⟨hwf, rfl⟩

section Step

variable {m : Preempted sdk}

theorem BufferInv.thread (h : BufferInv m) :
    BufferInv ((firmware sdk).slice m .thread) ∧
      (settled ((firmware sdk).slice m .thread)).queue =
        queueAfter (settled m).queue m .thread ((firmware sdk).slice m .thread) := by
  obtain ⟨s, frame⟩ := m
  cases frame with
  | none => exact ⟨h, rfl⟩
  | some f =>
    obtain ⟨hwf, hle, hrel⟩ := h
    have hsettled : settled ((firmware sdk).slice ⟨s, some f⟩ .thread) = _ :=
      settled_statement hle hrel
    obtain ⟨hwf', hqueue⟩ := queue_threadBuffer hwf hrel
    obtain ⟨hle', hrel'⟩ := statement_relies hle hrel
    refine ⟨⟨?_, hle', hrel'⟩, ?_⟩
    · rw [hsettled]
      exact hwf'
    · rw [hsettled]
      exact hqueue

/-- The count is within its bounds, and so is the write index. -/
theorem BufferInv.wp_lt (h : BufferInv m) : m.state.bufferList.wp < maxBufferEntries := by
  have hlt := h.wf.wp_lt
  unfold settled at hlt
  cases hnext : nextStatement m <;> rw [hnext] at hlt <;> exact hlt

/-- An event that leaves the list alone. -/
theorem BufferInv.same (h : BufferInv m) (m' : Preempted sdk)
    (hb : m'.state.bufferList = m.state.bufferList)
    (hnext : nextStatement m' = nextStatement m ∨
      nextStatement m' = .empty ∧ nextStatement m = .rest) {i : Input} :
    BufferInv m' ∧ (settled m').queue = queueAfter (settled m).queue m (.event i) m' := by
  obtain ⟨hwf, hle, hrel⟩ := h
  have hsettled : settled m' = settled m := by
    unfold settled
    rcases hnext with hnext | ⟨hempty, hrest⟩
    · rw [hb, hnext]
    · rw [hb, hempty, hrest]
      rfl
  refine ⟨⟨hsettled ▸ hwf, hb ▸ hle, ?_⟩, ?_⟩
  · rcases hnext with hnext | ⟨hempty, -⟩
    · rw [hb, hnext]
      exact hrel
    · rw [hempty]
      trivial
  · rw [hsettled, queueAfter, hb, if_neg (Nat.lt_irrefl _)]

/-- **An enqueue by an interrupt.** -/
theorem BufferInv.enqueue (h : BufferInv m) {s : State sdk} {k : ℕ}
    (hb : s.bufferList = (bufferEnqueue m.state.bufferList .mHids .keypadState 2 k).2)
    (hroom : m.state.bufferList.count ≤ maxBufferEntries)
    (hfits : (settled (⟨s, m.frame⟩ : Preempted sdk)).count ≤ maxBufferEntries)
    (hnext : (nextStatement m).counting = false) {i : Input} :
    BufferInv (⟨s, m.frame⟩ : Preempted sdk) ∧
      (settled (⟨s, m.frame⟩ : Preempted sdk)).queue =
        queueAfter (settled m).queue m (.event i) ⟨s, m.frame⟩ := by
  have hwp := h.wp_lt
  obtain ⟨hwf, hle, hrel⟩ := h
  have hring := ring_settle_enqueue hwf hrel hroom hnext .mHids .keypadState 2 k
  have hwritten := bufferEnqueue_eq hwp hroom .mHids .keypadState 2 k
  have hsettled : settled (⟨s, m.frame⟩ : Preempted sdk) =
      settle (bufferEnqueue m.state.bufferList .mHids .keypadState 2 k).2 (nextStatement m) := by
    rw [← hb]
    rfl
  have hlt : (settled m).count < maxBufferEntries := by
    have hcount : (settled (⟨s, m.frame⟩ : Preempted sdk)).count = (settled m).count + 1 := by
      rw [hsettled]
      exact congrArg RingBuffer.count hring
    omega
  have hqueue : (settled (⟨s, m.frame⟩ : Preempted sdk)).queue =
      (settled m).queue ++ [⟨u8 k, u8 2, .keypadState, .mHids⟩] := by
    rw [hsettled, BufferList.queue, hring]
    exact RingBuffer.queue_push hwf hlt _
  refine ⟨⟨?_, ?_, ?_⟩, ?_⟩
  · rw [hsettled, BufferList.WF, hring]
    exact RingBuffer.WF.push hwf hlt _
  · show s.bufferList.count ≤ _
    rw [hb, hwritten]
    exact Nat.succ_le_succ hroom
  · show Relies s.bufferList (nextStatement m)
    rw [hb, hwritten]
    cases hn : nextStatement m with
    | store => rw [hn] at hnext; cases hnext
    | empty | wrap | rest => trivial
    | element | clear | advance | load => exact Nat.succ_pos _
    | arguments | keep | copy | send | sent =>
      rw [hn] at hrel
      exact ⟨hrel.1, Nat.succ_pos _⟩
  · rw [hqueue, queueAfter, if_pos]
    · show _ = _ ++ [s.bufferList.buffer m.state.bufferList.wp]
      rw [hb, hwritten]
      dsimp only
      rw [Function.update_self]
    · show _ < s.bufferList.count
      rw [hb, hwritten]
      exact Nat.lt_succ_self _

/-- While no count is lost, a slice does to the settled queue what it is to do. -/
theorem BufferInv.slice (h : BufferInv m) {sl : Slice Input} (hfits : SettledFits m sl)
    (hkept : CountKept m sl) :
    BufferInv ((firmware sdk).slice m sl) ∧
      (settled ((firmware sdk).slice m sl)).queue =
        queueAfter (settled m).queue m sl ((firmware sdk).slice m sl) := by
  cases sl with
  | thread => exact h.thread
  | event i =>
    have htaken := slice_taken m i
    unfold SettledFits at hfits
    change (nextStatement m).counting = true → _ = _ at hkept
    generalize (firmware sdk).slice m (.event i) = m' at htaken hfits hkept ⊢
    cases htaken with
    | busy => exact h.same m rfl (.inl rfl)
    | begun tx hidle =>
      exact h.same ⟨deliver m.state i.evt, some ⟨tx, i.uninit, .empty⟩⟩ rfl
        (.inr ⟨rfl, by rw [nextStatement, hidle]⟩)
    | whole hidle hu ht hd =>
      exact h.same ⟨_, none⟩ (whole_keysSame m.state hu ht hd).1
        (.inl (by simp only [nextStatement, hidle]))
    | interrupt hi =>
      rcases interrupt_bufferList m.state hi with hb | ⟨k, hb⟩
      · exact h.same ⟨_, _⟩ hb (.inl rfl)
      rcases Nat.lt_or_ge maxBufferEntries m.state.bufferList.count with hfull | hroom
      · rw [bufferEnqueue_full (Nat.le_antisymm h.count_le hfull)] at hb
        exact h.same ⟨_, _⟩ hb (.inl rfl)
      · refine h.enqueue hb hroom hfits ?_
        cases hnext : (nextStatement m).counting with
        | false => rfl
        | true =>
          have hcount := hkept hnext
          rw [hb, bufferEnqueue_eq h.wp_lt hroom] at hcount
          exact absurd hcount (Nat.succ_ne_self _)

/-- And if it does, it loses no count: the entry would be missing. -/
theorem BufferInv.countKept (h : BufferInv m) {sl : Slice Input}
    (hqueue : (settled ((firmware sdk).slice m sl)).queue =
      queueAfter (settled m).queue m sl ((firmware sdk).slice m sl)) : CountKept m sl := by
  cases sl with
  | thread => trivial
  | event i =>
    intro hcounting
    have htaken := slice_taken m i
    generalize (firmware sdk).slice m (.event i) = m' at htaken hqueue ⊢
    cases htaken with
    | busy => rfl
    | begun tx hidle => rfl
    | whole hidle hu ht hd => exact congrArg _ (whole_keysSame m.state hu ht hd).1
    | interrupt hi =>
      rcases interrupt_bufferList m.state hi with hb | ⟨k, hb⟩
      · exact congrArg _ hb
      rcases Nat.lt_or_ge maxBufferEntries m.state.bufferList.count with hfull | hroom
      · rw [bufferEnqueue_full (Nat.le_antisymm h.count_le hfull)] at hb
        exact congrArg _ hb
      -- the settled count does not see the entry
      · exfalso
        have hlength := congrArg List.length hqueue
        rw [bufferEnqueue_eq h.wp_lt hroom] at hb
        cases hnext : nextStatement m with
        | store count =>
          have hcount : (settled (⟨step m.state i, m.frame⟩ : Preempted sdk)).count =
              (settled m).count := by
            unfold settled
            rw [show nextStatement (⟨step m.state i, m.frame⟩ : Preempted sdk) = _ from hnext,
              hnext]
            rfl
          rw [queueAfter, if_pos, List.length_append, BufferList.length_queue,
            BufferList.length_queue, hcount] at hlength
          · exact absurd hlength (Nat.ne_of_lt (Nat.lt_succ_self _))
          · show _ < (step m.state i).bufferList.count
            rw [hb]
            exact Nat.lt_succ_self _
        | _ => rw [hnext] at hcounting; cases hcounting

end Step

/-! ### Runs -/

/-- The queue kept beside the run. -/
def queueOf (link : sdk.Link) (pm : sdk.Pm) (uart : sdk.Uart) (slices : List (Slice Input)) :
    List BufferEntry :=
  (run (observed (firmware sdk).slice fun q m sl m' => queueAfter q m sl m')
    (preemptedBoot link pm uart, []) slices).2

-- An enqueue between the two: the main loop ends with the buffer empty, and an entry in it.
example :
    (run (firmware (device 1)).slice (preemptedBoot (deviceLink 1) (devicePm 1) (deviceUart 1))
        [.event (frame 0 1), .event disconnected, .thread, .thread, .thread, .thread, .thread,
          .event (frame 0 2), .thread]).state.bufferList.count = 0 ∧
      queueOf (deviceLink 1) (devicePm 1) (deviceUart 1)
        [.event (frame 0 1), .event disconnected, .thread, .thread, .thread, .thread, .thread,
          .event (frame 0 2), .thread] = [stateEntry 1] := by
  decide

end SnesController
