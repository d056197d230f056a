import SnesController.Buffer

/-!
# The key buffer refines a bounded queue

Runs of calls of `buffer_enqueue` and `buffer_dequeue` after `buffer_init`, with any arguments, the
link answering as it likes, against the queue of capacity `MAX_BUFFER_ENTRIES`: `CallOk` is
what the queue demands of one call, `Held` what it demands of the state in between, and
`RefinesFifo` says that a run meets both throughout.

`CallFits` lists what stands in the way. The fullness test admits a sixth entry; an offset and a
length are stored in a `uint8_t`; a pattern longer than a report is copied past its end; in boot
mode, where nothing is transmitted, `buffer_dequeue(true)` goes by an `err_code` that was never set;
and an entry whose offset is past its length is removed though its one transmission was refused.
`refinesFifo_iff` — a run refines the queue exactly when every call of it fits.
-/

namespace SnesController

open RingBuffer EventRun

variable {sdk : Sdk}

/-- The arguments of `buffer_enqueue`. -/
structure EnqueueArgs where
  pHids : HidsPtr
  pKeyPattern : PatternPtr
  patternLen : ℕ
  offset : ℕ
  deriving DecidableEq

/-- The entry the arguments make. -/
def EnqueueArgs.entry (a : EnqueueArgs) : BufferEntry :=
  ⟨a.offset, a.patternLen, a.pKeyPattern, a.pHids⟩

/-- A call of the buffer. -/
inductive BufferCall where
  | enqueue (a : EnqueueArgs)
  | dequeue (txFlag : Bool)
  deriving DecidableEq

/-- Make a call; the second component is what an uninitialised `err_code` would hold. -/
def bufferCall (s : State sdk) (c : BufferCall × ErrCode) : ErrCode × State sdk :=
  match c.1 with
  | .enqueue a =>
    let r := bufferEnqueue s.bufferList a.pHids a.pKeyPattern a.patternLen a.offset
    (r.1, { s with bufferList := r.2 })
  | .dequeue txFlag => bufferDequeue s c.2 txFlag

/-- The state after a call. -/
def bufferStep (s : State sdk) (c : BufferCall × ErrCode) : State sdk := (bufferCall s c).2

/-- The reports a call handed to the link. -/
def handedBy (s : State sdk) (c : BufferCall × ErrCode) : List Report :=
  (bufferStep s c).reports.drop s.reports.length

/-- The transmission of a call stopped on `BLE_ERROR_NO_TX_PACKETS`. -/
def StoppedNoTx (s : State sdk) (c : BufferCall × ErrCode) : Prop :=
  (handedBy s c).getLast?.map (·.result) = some .noTxPackets

instance (s : State sdk) (c : BufferCall × ErrCode) : Decidable (StoppedNoTx s c) :=
  inferInstanceAs (Decidable (_ = _))

/-- **What the queue demands of a call.** An enqueue is refused with `NRF_ERROR_NO_MEM`, and
nothing changes, when five entries are held; else it appends its entry and touches no other
slot. A dequeue of the empty queue returns `NRF_ERROR_NOT_FOUND`, and nothing changes; else it
acts on the oldest entry, and copies no more of its pattern than `data` has room for: the entry
stays, advanced by the copies taken, when the transmission stopped on `BLE_ERROR_NO_TX_PACKETS`, and
is removed in every other case. -/
def CallOk (s : State sdk) (c : BufferCall × ErrCode) : Prop :=
  match c.1, s.bufferList.queue with
  | .enqueue a, q =>
    if q.length = maxBufferEntries then bufferCall s c = (.noMem, s)
    else (bufferCall s c).1 = .success ∧
      (bufferStep s c).bufferList.queue = q ++ [a.entry] ∧
      (∀ i, i ≠ s.bufferList.wp →
        (bufferStep s c).bufferList.buffer i = s.bufferList.buffer i) ∧
      bufferStep s c = { s with bufferList := (bufferStep s c).bufferList }
  | .dequeue _, [] => bufferCall s c = (.notFound, s)
  | .dequeue txFlag, e :: q =>
    (txFlag = true → e.dataLen ≤ joystickInputReportKeysMaxLen) ∧
    if StoppedNoTx s c then
      txFlag = true ∧ (bufferCall s c).1 = .noTxPackets ∧
        (bufferStep s c).bufferList.queue =
          { e with dataOffset := e.dataOffset + (handedBy s c).countP (·.accepted) } :: q
    else (bufferStep s c).bufferList.queue = q

/-- How the oldest entry may have advanced. -/
def Advances (e e' : BufferEntry) : Prop :=
  e' = { e with dataOffset := e'.dataOffset } ∧ e.dataOffset ≤ e'.dataOffset

/-- The log of a run: the entries that enqueues put in the buffer, and how many entries
dequeues took out. -/
def recordCall (log : FifoLog BufferEntry) (s : State sdk) (c : BufferCall × ErrCode)
    (s' : State sdk) : FifoLog BufferEntry :=
  match c.1 with
  | .enqueue a => if (bufferCall s c).1 = .success then log.record (.push a.entry) else log
  | .dequeue _ =>
    if s'.bufferList.count < s.bufferList.count then log.record .pop else log

/-- A run of calls with its log. -/
def fifoRun (s : State sdk) (cs : List (BufferCall × ErrCode)) : State sdk × FifoLog BufferEntry :=
  run (observed bufferStep recordCall) (s, ⟨[], 0⟩) cs

/-- **What the queue demands of a state**: the counters agree, and the buffer holds the
entries put in and not taken out, in order, each as it was put in but for an advance of the
oldest. -/
structure Held (c : State sdk × FifoLog BufferEntry) : Prop where
  wf : c.1.bufferList.WF
  popped_le : c.2.popped ≤ c.2.pushed.length
  held : Advanced Advances c.2.held c.1.bufferList.queue

/-- **A run refines the bounded queue.** -/
structure RefinesFifo (s : State sdk) (cs : List (BufferCall × ErrCode)) : Prop where
  state : ∀ p, p <+: cs → Held (fifoRun s p)
  call : ∀ p c, p ++ [c] <+: cs → CallOk (run bufferStep s p) c

/-! ### One call -/

/-- What the proofs carry along a run. -/
structure FifoInv (c : State sdk × FifoLog BufferEntry) : Prop extends Held c where
  bytes : ∀ e ∈ c.1.bufferList.queue, e.Bytes

/-- The entry may be transmitted: its pattern fits `data`; in boot mode an uninitialised `err_code`
is not `BLE_ERROR_NO_TX_PACKETS`, unless the offset is past the length; and in report mode the link
does not answer so to an entry whose offset is past its length. -/
def TransmitFits (s : State sdk) (uninit : ErrCode) (e : BufferEntry) : Prop :=
  e.dataLen ≤ joystickInputReportKeysMaxLen ∧
    if s.mInBootMode then uninit = .noTxPackets → e.dataLen < e.dataOffset
    else firstAnswer s e.pInstance e.pData e.dataLen = .noTxPackets → e.dataOffset ≤ e.dataLen

instance (s : State sdk) (uninit : ErrCode) (e : BufferEntry) :
    Decidable (TransmitFits s uninit e) := inferInstanceAs (Decidable (_ ∧ _))

/-- **The call fits**: it does not enqueue while five entries are held, nor an offset or a length
that is no `uint8_t`, and it does not transmit what may not be. -/
def CallFits (s : State sdk) (c : BufferCall × ErrCode) : Prop :=
  match c.1 with
  | .enqueue a => s.bufferList.count ≠ maxBufferEntries ∧ a.offset < 256 ∧ a.patternLen < 256
  | .dequeue txFlag => txFlag = true → s.bufferList.count ≠ 0 →
      TransmitFits s c.2 (s.bufferList.buffer s.bufferList.rp)

instance (s : State sdk) : ∀ c, Decidable (CallFits s c)
  | (.enqueue _, _) => inferInstanceAs (Decidable (_ ∧ _ ∧ _))
  | (.dequeue _, _) => inferInstanceAs (Decidable (_ → _ → _))

theorem advances_refl (e : BufferEntry) : Advances e e := ⟨rfl, Nat.le_refl _⟩

theorem advances_trans (e₁ e₂ e₃ : BufferEntry) (h₁ : Advances e₁ e₂) (h₂ : Advances e₂ e₃) :
    Advances e₁ e₃ := by
  obtain ⟨h₁, ho₁⟩ := h₁
  obtain ⟨h₂, ho₂⟩ := h₂
  refine ⟨?_, ho₁.trans ho₂⟩
  rw [h₂, h₁]

/-- A step of the queue keeps what a run carries. -/
theorem FifoInv.record {s s' : State sdk} {log : FifoLog BufferEntry} {act : FifoAct BufferEntry}
    (h : FifoInv (s, log))
    (hstep : FifoStep maxBufferEntries Advances s.bufferList.queue act s'.bufferList.queue)
    (hwf : s'.bufferList.WF) (hbytes : ∀ e ∈ s'.bufferList.queue, e.Bytes) :
    FifoInv (s', log.record act) := by
  obtain ⟨hle, hheld⟩ := conserve advances_refl advances_trans h.popped_le h.held hstep
  exact ⟨⟨hwf, hle, hheld⟩, hbytes⟩

/-- What an enqueue that appends its entry does to what a run carries. -/
theorem FifoInv.appended {s : State sdk} {log : FifoLog BufferEntry} {a : EnqueueArgs} {u : ErrCode}
    (h : FifoInv (s, log)) (hc : s.bufferList.count < maxBufferEntries) (ha : a.entry.Bytes)
    {s' : State sdk}
    (hret : (bufferCall s (.enqueue a, u)).1 = .success) (hwf : s'.bufferList.WF)
    (hq : s'.bufferList.queue = s.bufferList.queue ++ [a.entry]) :
    FifoInv (s', recordCall log s (.enqueue a, u) s') := by
  have hlog : recordCall log s (.enqueue a, u) s' = log.record (.push a.entry) := if_pos hret
  have hstep : FifoStep maxBufferEntries Advances s.bufferList.queue (.push a.entry)
      s'.bufferList.queue := by
    rw [hq]
    exact .push (by rw [BufferList.length_queue]; exact hc)
  rw [hlog]
  apply h.record hstep hwf
  intro e he
  simp only [hq, List.mem_append, List.mem_singleton] at he
  rcases he with he | rfl
  · exact h.bytes e he
  · exact ha

/-- An enqueue while a slot is free. -/
theorem enqueue_ok {s : State sdk} {log : FifoLog BufferEntry} {a : EnqueueArgs} {u : ErrCode}
    (h : FifoInv (s, log)) (hc : s.bufferList.count ≠ maxBufferEntries) (ho : a.offset < 256)
    (hl : a.patternLen < 256) :
    CallOk s (.enqueue a, u) ∧
      FifoInv (observed bufferStep recordCall (s, log) (.enqueue a, u)) := by
  have hlt : s.bufferList.count < maxBufferEntries := lt_of_le_of_ne h.wf.count_le hc
  have heq := bufferEnqueue_eq h.wf.wp_lt h.wf.count_le a.pHids a.pKeyPattern a.patternLen a.offset
  have hret : (bufferCall s (.enqueue a, u)).1 = .success := by
    simp only [bufferCall, heq]
  obtain ⟨hwf, hq⟩ := queue_bufferEnqueue h.wf hlt a.pHids a.pKeyPattern hl ho
  have hslots : ∀ i, i ≠ s.bufferList.wp →
      (bufferEnqueue s.bufferList a.pHids a.pKeyPattern a.patternLen a.offset).2.buffer i =
        s.bufferList.buffer i := by
    intro i hi
    rw [heq]
    exact Function.update_of_ne hi _ _
  refine ⟨?_, h.appended hlt ⟨ho, hl⟩ hret hwf hq⟩
  simp only [CallOk, BufferList.length_queue, if_neg hc]
  exact ⟨hret, hq, hslots, rfl⟩

/-- What an enqueue puts in the buffer while a slot is free, whatever its arguments. -/
theorem enqueue_stored {b : BufferList} (h : b.WF) (hc : b.count < maxBufferEntries)
    (a : EnqueueArgs) :
    (bufferEnqueue b a.pHids a.pKeyPattern a.patternLen a.offset).2.queue =
      b.queue ++ [⟨u8 a.offset, u8 a.patternLen, a.pKeyPattern, a.pHids⟩] := by
  unfold BufferList.queue
  rw [ring_bufferEnqueue h]
  exact RingBuffer.queue_push h hc _

/-- An enqueue while five entries are held is taken all the same, and an offset or a length that is
no `uint8_t` is not what the buffer holds afterwards. -/
theorem enqueue_fits {s : State sdk} {a : EnqueueArgs} {u : ErrCode} (h : s.bufferList.WF)
    (hok : CallOk s (.enqueue a, u)) : CallFits s (.enqueue a, u) := by
  simp only [CallOk, BufferList.length_queue] at hok
  split_ifs at hok with hc
  · have hret : (bufferCall s (.enqueue a, u)).1 = .success := by
      simp only [bufferCall, bufferEnqueue_eq h.wp_lt h.count_le]
    rw [hok] at hret
    cases hret
  · have hq := (enqueue_stored h (lt_of_le_of_ne h.count_le hc) a).symm.trans hok.2.1
    have hentry := (List.singleton_inj.mp (List.append_cancel_left hq)).symm
    have ho : a.offset = u8 a.offset := congrArg BufferEntry.dataOffset hentry
    have hl : a.patternLen = u8 a.patternLen := congrArg BufferEntry.dataLen hentry
    refine ⟨hc, ?_, ?_⟩
    · rw [ho]
      exact Nat.mod_lt _ (by decide)
    · rw [hl]
      exact Nat.mod_lt _ (by decide)

/-- What a dequeue that removes the head does to what a run carries. -/
theorem FifoInv.removed {s : State sdk} {log : FifoLog BufferEntry} {e : BufferEntry}
    {q : List BufferEntry} (h : FifoInv (s, log)) (hq : s.bufferList.queue = e :: q)
    (s' : State sdk) (hs : s'.bufferList = bufferRemove s.bufferList) (txFlag : Bool)
    (u : ErrCode) :
    s'.bufferList.queue = q ∧ FifoInv (s', recordCall log s (.dequeue txFlag, u) s') := by
  have hc := count_pos_of_queue hq
  obtain ⟨hwf', hq'⟩ := queue_bufferRemove h.wf hc
  rw [hq, List.tail_cons] at hq'
  have hq'' : s'.bufferList.queue = q := by rw [hs, hq']
  have hcount : s'.bufferList.count < s.bufferList.count := by
    rw [← BufferList.length_queue, ← s.bufferList.length_queue, hq'', hq]
    exact Nat.lt_succ_self _
  have hlog : recordCall log s (.dequeue txFlag, u) s' = log.record .pop := if_pos hcount
  have hstep : FifoStep maxBufferEntries Advances s.bufferList.queue .pop s'.bufferList.queue := by
    rw [hq, hq'']
    exact .pop
  rw [hlog]
  refine ⟨hq'', h.record hstep (hs ▸ hwf') ?_⟩
  intro e' he'
  rw [hq''] at he'
  exact h.bytes e' (by rw [hq]; exact List.mem_cons_of_mem _ he')

/-- What a dequeue that keeps the head does to what a run carries. -/
theorem FifoInv.advanced {s : State sdk} {log : FifoLog BufferEntry} {e : BufferEntry}
    {q : List BufferEntry} (h : FifoInv (s, log)) (hq : s.bufferList.queue = e :: q) {k : ℕ}
    (hk : e.dataOffset + k ≤ e.dataLen) (s' : State sdk)
    (hs : s'.bufferList = bufferKeep s.bufferList (e.dataOffset + k)) (txFlag : Bool)
    (u : ErrCode) :
    s'.bufferList.queue = { e with dataOffset := e.dataOffset + k } :: q ∧
      FifoInv (s', recordCall log s (.dequeue txFlag, u) s') := by
  have hc := count_pos_of_queue hq
  have hlen := (h.bytes e (by rw [hq]; exact List.mem_cons_self)).len_lt
  have hlt : e.dataOffset + k < 256 := by omega
  obtain ⟨hwf', hq'⟩ := queue_bufferKeep h.wf hc hlt
  rw [hq, List.tail_cons, head_of_queue h.wf hq] at hq'
  have hq'' : s'.bufferList.queue = { e with dataOffset := e.dataOffset + k } :: q := by
    rw [hs, hq']
  have hcount : ¬ s'.bufferList.count < s.bufferList.count := by
    rw [← BufferList.length_queue, ← s.bufferList.length_queue, hq'', hq]
    exact Nat.lt_irrefl _
  have hlog : recordCall log s (.dequeue txFlag, u) s' = log.record .advance := if_neg hcount
  have hstep : FifoStep maxBufferEntries Advances s.bufferList.queue .advance
      s'.bufferList.queue := by
    rw [hq, hq'']
    exact .advance ⟨rfl, Nat.le_add_right _ _⟩
  rw [hlog]
  refine ⟨hq'', h.record hstep (hs ▸ hwf') ?_⟩
  intro e' he'
  rw [hq'', List.mem_cons] at he'
  rcases he' with rfl | he'
  · exact ⟨hlt, hlen⟩
  · exact h.bytes e' (by rw [hq]; exact List.mem_cons_of_mem _ he')

section Dequeue

variable {s : State sdk} {log : FifoLog BufferEntry} {txFlag : Bool} {u : ErrCode} {e : BufferEntry}
  {q : List BufferEntry} {t : Attempt sdk}

theorem dequeue_eq (h : FifoInv (s, log)) (hq : s.bufferList.queue = e :: q)
    (ht : entryAttempt s u txFlag e = t) :
    bufferCall s (.dequeue txFlag, u) = (t.errCode,
      { s.handed t.link t.reports with
        bufferList := if t.errCode = .noTxPackets ∧ e.dataOffset ≤ e.dataLen then
            bufferKeep s.bufferList (e.dataOffset + t.taken)
          else bufferRemove s.bufferList }) :=
  bufferDequeue_eq u txFlag (count_pos_of_queue hq) (head_of_queue h.wf hq)
    (h.bytes e (by rw [hq]; exact List.mem_cons_self)) ht

/-- A dequeue, whatever the mode and whatever the link answers: the oldest entry is kept, advanced
by the copies taken, or removed. -/
theorem dequeue_inv (h : FifoInv (s, log)) (hq : s.bufferList.queue = e :: q)
    (ht : entryAttempt s u txFlag e = t) :
    (bufferStep s (.dequeue txFlag, u)).bufferList.queue =
        (if t.errCode = .noTxPackets ∧ e.dataOffset ≤ e.dataLen then
          { e with dataOffset := e.dataOffset + t.taken } :: q else q) ∧
      FifoInv (observed bufferStep recordCall (s, log) (.dequeue txFlag, u)) := by
  have heq := congrArg Prod.snd (dequeue_eq h hq ht)
  dsimp only at heq
  unfold observed
  rw [bufferStep, heq]
  split_ifs with hkept
  · obtain ⟨htx, hoff⟩ := hkept
    have htaken := entryAttempt_taken_le ht (by rw [htx]; decide)
    exact h.advanced hq (by omega) _ rfl txFlag u
  · exact h.removed hq _ rfl txFlag u

theorem handedBy_dequeue (h : FifoInv (s, log)) (hq : s.bufferList.queue = e :: q)
    (ht : entryAttempt s u txFlag e = t) : handedBy s (.dequeue txFlag, u) = t.reports := by
  rw [handedBy, bufferStep, dequeue_eq h hq ht]
  exact List.drop_left

/-- A transmission stops on `BLE_ERROR_NO_TX_PACKETS` in report mode only, when that is the last
answer. -/
theorem stoppedNoTx_iff (h : FifoInv (s, log)) (hq : s.bufferList.queue = e :: q)
    (ht : entryAttempt s u txFlag e = t) :
    StoppedNoTx s (.dequeue txFlag, u) ↔
      txFlag = true ∧ s.mInBootMode = false ∧ t.errCode = .noTxPackets := by
  rw [StoppedNoTx, handedBy_dequeue h hq ht]
  cases txFlag with
  | false =>
    subst ht
    simp [entryAttempt_false]
  | true =>
    cases hmode : s.mInBootMode with
    | true =>
      rw [entryAttempt_bootMode hmode] at ht
      subst ht
      simp
    | false =>
      rw [entryAttempt_reportMode hmode] at ht
      obtain ⟨herr, -, hrs⟩ | ⟨-, -, hrs⟩ :=
        handPattern_cases s e.pInstance e.pData e.dataLen _ ht
      · simp [hrs, herr, keyReport, List.getLast?_replicate]
      · simp [hrs, keyReport]

/-- A dequeue does as it should just when it copies no more than `data` has room for, and keeps the
entry exactly if a transmission of it stopped on `BLE_ERROR_NO_TX_PACKETS`. -/
theorem dequeue_ok_iff (h : FifoInv (s, log)) (hq : s.bufferList.queue = e :: q)
    (ht : entryAttempt s u txFlag e = t) :
    CallOk s (.dequeue txFlag, u) ↔
      (txFlag = true → e.dataLen ≤ joystickInputReportKeysMaxLen) ∧
        (StoppedNoTx s (.dequeue txFlag, u) ↔
          t.errCode = .noTxPackets ∧ e.dataOffset ≤ e.dataLen) := by
  have hqueue := (dequeue_inv h hq ht).1
  have hcode : (bufferCall s (.dequeue txFlag, u)).1 = t.errCode := by rw [dequeue_eq h hq ht]
  have hne : ∀ x : BufferEntry, x :: q ≠ q := fun x => List.cons_ne_self x q
  simp only [CallOk, hq, hqueue, hcode, handedBy_dequeue h hq ht]
  apply and_congr_right'
  have hstop := stoppedNoTx_iff h hq ht
  by_cases hs : StoppedNoTx s (.dequeue txFlag, u)
  · obtain ⟨htx, -, herr⟩ := hstop.mp hs
    rw [if_pos hs]
    by_cases hoff : e.dataOffset ≤ e.dataLen
    · rw [if_pos ⟨herr, hoff⟩]
      exact iff_of_true ⟨htx, herr, rfl⟩ (iff_of_true hs ⟨herr, hoff⟩)
    · rw [if_neg (fun hk => hoff hk.2)]
      exact iff_of_false (fun hk => hne _ hk.2.2.symm) (fun hk => hoff (hk.mp hs).2)
  · rw [if_neg hs]
    by_cases hkept : t.errCode = .noTxPackets ∧ e.dataOffset ≤ e.dataLen
    · rw [if_pos hkept]
      exact iff_of_false (hne _) (fun hk => hs (hk.mpr hkept))
    · rw [if_neg hkept]
      exact iff_of_true rfl (iff_of_false hs hkept)

/-- **A dequeue does as it should** just when what it transmits may be transmitted. -/
theorem dequeue_fits_iff (h : FifoInv (s, log)) (hq : s.bufferList.queue = e :: q) :
    CallOk s (.dequeue txFlag, u) ↔ (txFlag = true → TransmitFits s u e) := by
  rw [dequeue_ok_iff h hq rfl, stoppedNoTx_iff h hq rfl]
  unfold TransmitFits
  cases txFlag with
  | false => simp [entryAttempt_false]
  | true =>
    cases hmode : s.mInBootMode with
    | true => simp [entryAttempt_bootMode hmode]
    | false =>
      rw [entryAttempt_reportMode hmode]
      by_cases hoff : e.dataOffset ≤ e.dataLen
      · simp [hoff]
      · -- one pass only, and its answer the first
        have hone : e.dataLen - e.dataOffset = 0 := by omega
        simp [hone, handPattern_one, hoff]

end Dequeue

/-- **A call does as it should** just when it fits. -/
theorem callOk_iff {c : State sdk × FifoLog BufferEntry} {call : BufferCall × ErrCode}
    (h : FifoInv c) : CallOk c.1 call ↔ CallFits c.1 call := by
  obtain ⟨s, log⟩ := c
  obtain ⟨call, u⟩ := call
  cases call with
  | enqueue a =>
    exact ⟨enqueue_fits h.wf, fun hfits => (enqueue_ok h hfits.1 hfits.2.1 hfits.2.2).1⟩
  | dequeue txFlag =>
    cases hq : s.bufferList.queue with
    | nil =>
      have hc := count_eq_zero_of_queue hq
      have hempty : bufferCall s (.dequeue txFlag, u) = (.notFound, s) :=
        bufferDequeue_empty u txFlag hc
      simp only [CallOk, hq, CallFits]
      exact iff_of_true hempty fun _ hne => absurd hc hne
    | cons e q =>
      have hc := count_pos_of_queue hq
      rw [dequeue_fits_iff h hq]
      have hhead : s.bufferList.buffer s.bufferList.rp = e := head_of_queue h.wf hq
      simp only [CallFits, hhead]
      exact ⟨fun hfits htx _ => hfits htx, fun hfits htx => hfits htx (Nat.ne_of_gt hc)⟩

/-- **A call that fits** keeps what a run carries. -/
theorem FifoInv.call {c : State sdk × FifoLog BufferEntry} {call : BufferCall × ErrCode}
    (h : FifoInv c) (hfits : CallFits c.1 call) :
    FifoInv (observed bufferStep recordCall c call) := by
  obtain ⟨s, log⟩ := c
  obtain ⟨call, u⟩ := call
  cases call with
  | enqueue a => exact (enqueue_ok h hfits.1 hfits.2.1 hfits.2.2).2
  | dequeue txFlag =>
    cases hq : s.bufferList.queue with
    | nil =>
      have hempty : bufferCall s (.dequeue txFlag, u) = (.notFound, s) :=
        bufferDequeue_empty u txFlag (count_eq_zero_of_queue hq)
      have hlog : recordCall log s (.dequeue txFlag, u) s = log := if_neg (Nat.lt_irrefl _)
      simp only [observed, bufferStep, hempty, hlog]
      exact h
    | cons e q => exact (dequeue_inv h hq rfl).2

/-! ### Runs -/

theorem fifoInv_init (s : State sdk) :
    FifoInv (bufferInit s, (⟨[], 0⟩ : FifoLog BufferEntry)) := by
  obtain ⟨hwf, hq⟩ := bufferInit_queue s
  exact ⟨⟨hwf, Nat.le_refl 0, hq⟩, by simp [hq]⟩

/-- A run refines the queue when every call does as it should and leaves the state so. -/
theorem refinesFifo_iff_along {s : State sdk} (h : Held (s, (⟨[], 0⟩ : FifoLog BufferEntry)))
    (cs : List (BufferCall × ErrCode)) :
    RefinesFifo s cs ↔ Along (observed bufferStep recordCall)
      (fun c call => CallOk c.1 call ∧ Held (observed bufferStep recordCall c call))
      (s, ⟨[], 0⟩) cs := by
  rw [along_iff_steps]
  constructor
  · intro hr p call hp
    rw [run_observed_fst, ← run_concat (observed bufferStep recordCall)]
    exact ⟨hr.call p call hp, hr.state _ hp⟩
  · intro ha
    constructor
    · intro p hp
      rcases List.eq_nil_or_concat p with rfl | ⟨p', call, rfl⟩
      · exact h
      · rw [List.concat_eq_append] at hp ⊢
        rw [fifoRun, run_concat]
        exact (ha p' call hp).2
    · intro p call hp
      have := (ha p call hp).1
      rwa [run_observed_fst] at this

/-- **The key buffer refines the bounded queue exactly while its calls fit**: a run of calls
after `buffer_init`, with any arguments, refines the queue of capacity `MAX_BUFFER_ENTRIES` just
when no call enqueues while that many entries are held, or an offset or a length from 256 on, and
none transmits an entry that is longer than a report's data, or in boot mode while its `err_code`
happens to be `BLE_ERROR_NO_TX_PACKETS`, or whose offset is past its length while the link answers
so. -/
theorem refinesFifo_iff (s : State sdk) (cs : List (BufferCall × ErrCode)) :
    RefinesFifo (bufferInit s) cs ↔ Along bufferStep CallFits (bufferInit s) cs := by
  have hinit := fifoInv_init s
  have hobserved : Along (observed bufferStep recordCall) (fun c call => CallFits c.1 call)
      (bufferInit s, (⟨[], 0⟩ : FifoLog BufferEntry)) cs ↔
    Along bufferStep CallFits (bufferInit s) cs := along_observed
  rw [refinesFifo_iff_along hinit.toHeld, ← hobserved]
  exact along_iff_of_inv (I := FifoInv) (fun c call h _ hfits => h.call hfits)
    (fun c call h _ => ⟨fun hok => (callOk_iff h).mp hok.1,
      fun hfits => ⟨(callOk_iff h).mpr hfits, (h.call hfits).toHeld⟩⟩)
    (along_true _ cs) hinit

/-- Seven calls that never overfill the buffer, though the seventh entry is the sixth put in. -/
def sevenCalls : List (BufferCall × ErrCode) :=
  List.replicate 5 (.enqueue ⟨.mHids, .keypadState, 2, 1⟩, .success) ++
    [(.dequeue true, .success),
      (.enqueue ⟨.mHids, .keypadState, 2, 0⟩, .success)]

theorem refinesFifo_sevenCalls : RefinesFifo (bufferInit (deviceReset 3)) sevenCalls :=
  (refinesFifo_iff (deviceReset 3) sevenCalls).mpr (by decide)

/-- Six enqueues after `buffer_init` do not refine the queue. -/
theorem not_refinesFifo_sixEnqueues :
    ¬ RefinesFifo (bufferInit (deviceReset 3)) (List.replicate 6
      (.enqueue ⟨.mHids, .keypadState, 2, 0⟩, .success)) := by
  intro h
  have hle : _ ≤ maxBufferEntries := (h.state _ List.prefix_rfl).wf.count_le
  revert hle
  decide

end SnesController
