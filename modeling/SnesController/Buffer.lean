import SnesController.SendKey
import SnesController.Library.EventRun

/-!
# The key buffer

`my_ble_buffer.c`: key changes the link had no room for wait in a ring of
`MAX_BUFFER_ENTRIES` slots. The macro `BUFFER_LIST_FULL` compares the capacity with
`count – 1`, so the list counts as full at six entries, one more than it has slots.

Below the capacity the list is a bounded queue: its operations are those of
`RingBuffer` on `BufferList.ring`, and `refinesFifo_iff` says that a run of calls
refines the queue of capacity `MAX_BUFFER_ENTRIES` exactly when none of them enqueues
while five entries are held, or an offset or a length that is no `uint8_t`, and none transmits
an entry longer than a report, in boot mode by an `err_code` that happens to be
`BLE_ERROR_NO_TX_PACKETS`, or with an offset past its length to a link that answers so.

`bufferDequeue_eq` is a dequeue of any entry, `Dequeues` the cases of it for an entry whose offset
and length are those of a pattern.
-/

namespace SnesController

open RingBuffer EventRun

variable {sdk : Sdk}

/-- `BUFFER_ELEMENT_INIT`. -/
def bufferElementInit (b : BufferList) (i : ℕ) : BufferList :=
  { b with buffer := Function.update b.buffer i { b.buffer i with pData := .null } }

/-- `buffer_init`. -/
def bufferInit (s : State sdk) : State sdk :=
  let listInit := { s.bufferList with rp := 0, wp := 0, count := 0 }
  { s with bufferList := (List.range maxBufferEntries).foldl bufferElementInit listInit }

/-- `BUFFER_LIST_FULL`. -/
def bufferListFull (b : BufferList) : Bool := (maxBufferEntries : ℤ) = (b.count : ℤ) - 1

/-- `BUFFER_LIST_EMPTY`. -/
def bufferListEmpty (b : BufferList) : Bool := 0 = b.count

/-- An index after `++` and the test for the end of the array. -/
def wrapIndex (i : ℕ) : ℕ := if u8 (i + 1) = maxBufferEntries then 0 else u8 (i + 1)

/-- `buffer_enqueue`. -/
def bufferEnqueue (b : BufferList) (pHids : HidsPtr) (pKeyPattern : PatternPtr)
    (patternLen offset : ℕ) : ErrCode × BufferList :=
  if bufferListFull b then (.noMem, b)
  else (.success,
    { b with
      buffer := Function.update b.buffer b.wp ⟨u8 offset, u8 patternLen, pKeyPattern, pHids⟩
      count := u8 (b.count + 1)
      wp := wrapIndex b.wp })

/-- The `if (remove_element)` branch of `buffer_dequeue`. -/
def bufferRemove (b : BufferList) : BufferList :=
  { bufferElementInit b b.rp with rp := wrapIndex b.rp, count := u8 (b.count - 1) }

/-- `p_element->data_offset = actual_len`. -/
def bufferKeep (b : BufferList) (actualLen : ℕ) : BufferList :=
  { b with buffer :=
      Function.update b.buffer b.rp { b.buffer b.rp with dataOffset := u8 actualLen } }

/-- `buffer_dequeue`. -/
def bufferDequeue (s : State sdk) (uninit : ErrCode) (txFlag : Bool) : ErrCode × State sdk :=
  if bufferListEmpty s.bufferList then (.notFound, s)
  else if txFlag then
    let pElement := s.bufferList.buffer s.bufferList.rp
    let t := sendKeyScanPressRelease s uninit pElement.pInstance pElement.pData
      pElement.dataLen pElement.dataOffset
    if t.errCode = .noTxPackets ∧ t.actualLen ≤ pElement.dataLen then
      (t.errCode, { t.state with bufferList := bufferKeep t.state.bufferList t.actualLen })
    else (t.errCode, { t.state with bufferList := bufferRemove t.state.bufferList })
  else (.success, { s with bufferList := bufferRemove s.bufferList })

/-! ### The list as a ring -/

theorem wrapIndex_eq_next {i : ℕ} (h : i < maxBufferEntries) :
    wrapIndex i = next maxBufferEntries i := by
  have hu : u8 (i + 1) = i + 1 := u8_of_lt (by unfold maxBufferEntries at h; omega)
  unfold wrapIndex next
  rw [hu]

@[simp] theorem bufferListFull_iff {b : BufferList} :
    bufferListFull b = true ↔ b.count = maxBufferEntries + 1 := by
  simp only [bufferListFull, decide_eq_true_eq]
  omega

@[simp] theorem bufferListEmpty_iff {b : BufferList} :
    bufferListEmpty b = true ↔ b.count = 0 := by
  rw [bufferListEmpty, decide_eq_true_eq, eq_comm]

theorem BufferList.WF.count_le {b : BufferList} (h : b.WF) : b.count ≤ maxBufferEntries :=
  RingBuffer.WF.count_le h

theorem BufferList.WF.rp_lt {b : BufferList} (h : b.WF) : b.rp < maxBufferEntries :=
  h.toAligned.rp_lt

theorem BufferList.WF.wp_lt {b : BufferList} (h : b.WF) : b.wp < maxBufferEntries :=
  h.toAligned.wp_lt

/-- Up to its capacity, and even at it, the list takes one more entry. -/
theorem bufferEnqueue_eq {b : BufferList} (hw : b.wp < maxBufferEntries)
    (hc : b.count ≤ maxBufferEntries) (pHids : HidsPtr) (p : PatternPtr) (patternLen offset : ℕ) :
    bufferEnqueue b pHids p patternLen offset = (.success,
      { b with
        buffer := Function.update b.buffer b.wp ⟨u8 offset, u8 patternLen, p, pHids⟩
        count := b.count + 1
        wp := next maxBufferEntries b.wp }) := by
  have hcount : u8 (b.count + 1) = b.count + 1 := u8_of_lt (by unfold maxBufferEntries at hc; omega)
  unfold bufferEnqueue
  rw [if_neg (by rw [bufferListFull_iff]; omega), hcount, wrapIndex_eq_next hw]

theorem bufferEnqueue_full {b : BufferList} (hc : b.count = maxBufferEntries + 1) (pHids : HidsPtr)
    (p : PatternPtr) (patternLen offset : ℕ) :
    bufferEnqueue b pHids p patternLen offset = (.noMem, b) :=
  if_pos (bufferListFull_iff.mpr hc)

theorem bufferRemove_eq {b : BufferList} (hr : b.rp < maxBufferEntries)
    (hc : b.count ≤ maxBufferEntries + 1) :
    bufferRemove b =
      { b with
        buffer := Function.update b.buffer b.rp { b.buffer b.rp with pData := .null }
        rp := next maxBufferEntries b.rp
        count := b.count - 1 } := by
  have hcount : u8 (b.count - 1) = b.count - 1 := u8_of_lt (by unfold maxBufferEntries at hc; omega)
  unfold bufferRemove bufferElementInit
  rw [hcount, wrapIndex_eq_next hr]

/-- While a slot is free, `buffer_enqueue` writes at the ring's write index. -/
theorem ring_bufferEnqueue {b : BufferList} (h : b.WF) (pHids : HidsPtr) (p : PatternPtr)
    (patternLen offset : ℕ) :
    (bufferEnqueue b pHids p patternLen offset).2.ring =
      b.ring.push maxBufferEntries ⟨u8 offset, u8 patternLen, p, pHids⟩ := by
  rw [bufferEnqueue_eq h.wp_lt h.count_le]
  rfl

/-- Removing the head advances the ring's read index. -/
theorem ring_bufferRemove {b : BufferList} (h : b.WF) :
    (bufferRemove b).ring =
      b.ring.pop maxBufferEntries { b.buffer b.rp with pData := .null } := by
  rw [bufferRemove_eq h.rp_lt (Nat.le_succ_of_le h.count_le)]
  rfl

/-- Keeping the head writes at the ring's read index. -/
theorem ring_bufferKeep (b : BufferList) (actualLen : ℕ) :
    (bufferKeep b actualLen).ring =
      b.ring.setHead { b.buffer b.rp with dataOffset := u8 actualLen } := rfl

theorem queue_bufferEnqueue {b : BufferList} (h : b.WF) (hc : b.count < maxBufferEntries)
    (pHids : HidsPtr) (p : PatternPtr) {patternLen offset : ℕ} (hl : patternLen < 256)
    (ho : offset < 256) :
    (bufferEnqueue b pHids p patternLen offset).2.WF ∧
      (bufferEnqueue b pHids p patternLen offset).2.queue =
        b.queue ++ [⟨offset, patternLen, p, pHids⟩] := by
  unfold BufferList.WF BufferList.queue
  rw [ring_bufferEnqueue h, u8_of_lt hl, u8_of_lt ho]
  exact ⟨RingBuffer.WF.push h hc _, RingBuffer.queue_push h hc _⟩

theorem queue_bufferRemove {b : BufferList} (h : b.WF) (hc : 0 < b.count) :
    (bufferRemove b).WF ∧ (bufferRemove b).queue = b.queue.tail := by
  unfold BufferList.WF BufferList.queue
  rw [ring_bufferRemove h]
  exact ⟨RingBuffer.WF.pop h hc _, RingBuffer.queue_pop h hc _⟩

theorem queue_bufferKeep {b : BufferList} (h : b.WF) (hc : 0 < b.count) {actualLen : ℕ}
    (ha : actualLen < 256) :
    (bufferKeep b actualLen).WF ∧
      (bufferKeep b actualLen).queue =
        { b.buffer b.rp with dataOffset := actualLen } :: b.queue.tail := by
  unfold BufferList.WF BufferList.queue
  rw [ring_bufferKeep, u8_of_lt ha]
  exact ⟨RingBuffer.WF.setHead h _, RingBuffer.queue_setHead h hc _⟩

theorem head_of_queue {b : BufferList} (h : b.WF) {e : BufferEntry} {q : List BufferEntry}
    (hq : b.queue = e :: q) : b.buffer b.rp = e :=
  RingBuffer.head_of_queue_eq_cons h hq

theorem count_pos_of_queue {b : BufferList} {e : BufferEntry} {q : List BufferEntry}
    (hq : b.queue = e :: q) : 0 < b.count := by
  rw [← b.length_queue, hq]
  exact Nat.succ_pos _

theorem count_eq_zero_of_queue {b : BufferList} (hq : b.queue = []) : b.count = 0 := by
  rw [← b.length_queue, hq]
  rfl

/-- After `buffer_init` the list is well formed and empty. -/
theorem bufferInit_queue (s : State sdk) :
    (bufferInit s).bufferList.WF ∧ (bufferInit s).bufferList.queue = [] := by
  have hpos : 0 < maxBufferEntries := Nat.succ_pos 4
  exact ⟨⟨⟨hpos, hpos, rfl⟩, Nat.zero_le _⟩, rfl⟩

/-! ### What a dequeue does -/

/-- An entry whose offset and length are those of a pattern that fits a report. -/
structure BufferEntry.InPattern (e : BufferEntry) : Prop where
  offset_le : e.dataOffset ≤ e.dataLen
  len_le : e.dataLen ≤ joystickInputReportKeysMaxLen - 2

/-- An entry whose offset and length are `uint8_t`. -/
structure BufferEntry.Bytes (e : BufferEntry) : Prop where
  offset_lt : e.dataOffset < 256
  len_lt : e.dataLen < 256

theorem BufferEntry.InPattern.bytes {e : BufferEntry} (h : e.InPattern) : e.Bytes := by
  have hmax : joystickInputReportKeysMaxLen - 2 = 2 := rfl
  have hoff := h.offset_le
  have hlen := h.len_le
  exact ⟨by omega, by omega⟩

/-- The report an entry is transmitted as. -/
def entryReport (s : State sdk) (e : BufferEntry) (result : ErrCode) : Report :=
  keyReport s e.pInstance e.pData e.dataLen result

/-- **What `buffer_dequeue(true)` can do in report mode**, with `e` the oldest entry: every
copy owed is taken, and the entry removed; `k` are taken and the next finds no room, and
the entry is kept; or the link fails otherwise, and the entry is removed. -/
inductive Dequeues (s : State sdk) (e : BufferEntry) : ErrCode × State sdk → Prop where
  | done (l : sdk.Link) :
      Dequeues s e (.success,
        { s.handed l (List.replicate (e.dataLen - e.dataOffset + 1) (entryReport s e .success)) with
          bufferList := bufferRemove s.bufferList })
  | kept (l : sdk.Link) (k : ℕ) : e.dataOffset + k ≤ e.dataLen →
      Dequeues s e (.noTxPackets,
        { s.handed l (List.replicate k (entryReport s e .success) ++
            [entryReport s e .noTxPackets]) with
          bufferList := bufferKeep s.bufferList (e.dataOffset + k) })
  | failed (l : sdk.Link) (k : ℕ) (err : ErrCode) : err ≠ .success → err ≠ .noTxPackets →
      e.dataOffset + k ≤ e.dataLen →
      Dequeues s e (err,
        { s.handed l (List.replicate k (entryReport s e .success) ++ [entryReport s e err]) with
          bufferList := bufferRemove s.bufferList })

/-- It hands over at least one report, and only reports of the entry. -/
theorem Dequeues.reports {s : State sdk} {e : BufferEntry} {r : ErrCode × State sdk}
    (h : Dequeues s e r) :
    ∃ rs, r.2.reports = s.reports ++ rs ∧ rs ≠ [] ∧ ∀ x ∈ rs, x = entryReport s e x.result := by
  have hcopies : ∀ k, ∀ x ∈ List.replicate k (entryReport s e .success),
      x = entryReport s e x.result := by
    intro k x hx
    rw [List.eq_of_mem_replicate hx]
    rfl
  have hstopped : ∀ k err, ∀ x ∈ List.replicate k (entryReport s e .success) ++
      [entryReport s e err], x = entryReport s e x.result := by
    intro k err x hx
    rcases List.mem_append.mp hx with hx | hx
    · exact hcopies k x hx
    · rw [List.mem_singleton.mp hx]
      rfl
  cases h with
  | done l => exact ⟨_, rfl, List.replicate_succ_ne_nil, hcopies _⟩
  | kept l k hk => exact ⟨_, rfl, by simp, hstopped k _⟩
  | failed l k err _ _ hk => exact ⟨_, rfl, by simp, hstopped k _⟩

theorem bufferDequeue_true {s : State sdk} (uninit : ErrCode) {e : BufferEntry}
    (hmode : s.mInBootMode = false) (hc : 0 < s.bufferList.count)
    (he : s.bufferList.buffer s.bufferList.rp = e) (hin : e.InPattern) :
    Dequeues s e (bufferDequeue s uninit true) := by
  have hlen : e.dataLen + 1 < 65536 := by
    have := hin.len_le
    unfold joystickInputReportKeysMaxLen at this
    omega
  have ht := send_transmits s uninit e.pInstance e.pData hmode hin.offset_le hlen
  unfold bufferDequeue
  rw [if_neg (by rw [bufferListEmpty_iff]; omega), if_pos rfl, he]
  dsimp only
  generalize sendKeyScanPressRelease s uninit e.pInstance e.pData e.dataLen e.dataOffset = t at ht
  cases ht with
  | done l _ =>
    rw [if_neg (by rintro ⟨h, -⟩; cases h)]
    exact .done l
  | stopped l k err herr hk _ =>
    by_cases htx : err = .noTxPackets
    · subst htx
      rw [if_pos ⟨rfl, hk⟩]
      exact .kept l k hk
    · rw [if_neg (by rintro ⟨h, -⟩; exact htx h)]
      exact .failed l k err herr htx hk

/-- **What a call of `buffer_dequeue` hands to the link**, with `e` the oldest entry: nothing when
it is not to transmit, and nothing in boot mode, where what is returned is what `err_code` held;
else the entry's report, once for each offset that is left and once when there is none. -/
def entryAttempt (s : State sdk) (uninit : ErrCode) (txFlag : Bool) (e : BufferEntry) :
    Attempt sdk :=
  if txFlag = false then ⟨.success, s.link, []⟩
  else if s.mInBootMode then ⟨uninit, s.link, []⟩
  else handPattern s e.pInstance e.pData e.dataLen (e.dataLen - e.dataOffset + 1)

theorem entryAttempt_false (s : State sdk) (uninit : ErrCode) (e : BufferEntry) :
    entryAttempt s uninit false e = ⟨.success, s.link, []⟩ := rfl

theorem entryAttempt_bootMode {s : State sdk} (hmode : s.mInBootMode = true) (uninit : ErrCode)
    (e : BufferEntry) : entryAttempt s uninit true e = ⟨uninit, s.link, []⟩ := by
  rw [entryAttempt, if_neg (by decide), if_pos hmode]

theorem entryAttempt_reportMode {s : State sdk} (hmode : s.mInBootMode = false) (uninit : ErrCode)
    (e : BufferEntry) : entryAttempt s uninit true e =
      handPattern s e.pInstance e.pData e.dataLen (e.dataLen - e.dataOffset + 1) := by
  rw [entryAttempt, if_neg (by decide), hmode, if_neg Bool.false_ne_true]

/-- When it stops, not every copy was taken. -/
theorem entryAttempt_taken_le {s : State sdk} {uninit : ErrCode} {txFlag : Bool} {e : BufferEntry}
    {t : Attempt sdk} (ht : entryAttempt s uninit txFlag e = t) (herr : t.errCode ≠ .success) :
    t.taken ≤ e.dataLen - e.dataOffset := by
  cases txFlag with
  | false =>
    subst ht
    exact absurd rfl herr
  | true =>
    cases hmode : s.mInBootMode with
    | true =>
      rw [entryAttempt_bootMode hmode] at ht
      subst ht
      exact Nat.zero_le _
    | false =>
      rw [entryAttempt_reportMode hmode] at ht
      obtain ⟨hsuccess, -⟩ | ⟨-, htaken, -⟩ :=
        handPattern_cases s e.pInstance e.pData e.dataLen _ ht
      · exact absurd hsuccess herr
      · omega

/-- A transmission of an entry, in either mode: when it stops it has come as far as there were
copies taken. -/
theorem send_entry {s : State sdk} {uninit : ErrCode} {e : BufferEntry} (hbytes : e.Bytes)
    {t : Attempt sdk} (ht : entryAttempt s uninit true e = t) :
    ∃ actualLen, sendKeyScanPressRelease s uninit e.pInstance e.pData e.dataLen e.dataOffset =
        ⟨t.errCode, actualLen, s.handed t.link t.reports⟩ ∧
      (t.errCode ≠ .success → actualLen = e.dataOffset + t.taken) := by
  obtain ⟨hoff, hlen⟩ := hbytes
  obtain ⟨m, hm⟩ : ∃ m, m = e.dataLen - e.dataOffset := ⟨_, rfl⟩
  unfold sendKeyScanPressRelease
  cases hmode : s.mInBootMode with
  | true =>
    rw [entryAttempt_bootMode hmode] at ht
    subst ht
    rw [sendLoop_bootMode (e.dataLen + 2) uninit e.pInstance e.pData hmode hm (by omega) (by omega)]
    dsimp only
    rw [handed_nil]
    exact ⟨_, rfl, fun herr => if_neg herr⟩
  | false =>
    rw [entryAttempt_reportMode hmode, ← hm] at ht
    rw [sendLoop_reportMode (e.dataLen + 2) s uninit e.pInstance e.pData hmode hm (by omega)
      (by omega), ht]
    exact ⟨_, rfl, fun _ => rfl⟩

/-- **A call of `buffer_dequeue`**, of any entry: it is kept, with the copies taken added to its
offset, when the last answer was `BLE_ERROR_NO_TX_PACKETS` and its offset was not past its length;
else it is removed. -/
theorem bufferDequeue_eq {s : State sdk} (uninit : ErrCode) (txFlag : Bool) {e : BufferEntry}
    (hc : 0 < s.bufferList.count) (he : s.bufferList.buffer s.bufferList.rp = e)
    (hbytes : e.Bytes) {t : Attempt sdk} (ht : entryAttempt s uninit txFlag e = t) :
    bufferDequeue s uninit txFlag = (t.errCode,
      { s.handed t.link t.reports with
        bufferList := if t.errCode = .noTxPackets ∧ e.dataOffset ≤ e.dataLen then
            bufferKeep s.bufferList (e.dataOffset + t.taken)
          else bufferRemove s.bufferList }) := by
  unfold bufferDequeue
  rw [if_neg (by rw [bufferListEmpty_iff]; omega), he]
  cases txFlag with
  | false =>
    subst ht
    rw [if_neg Bool.false_ne_true]
    simp [entryAttempt_false, handed_nil]
  | true =>
    obtain ⟨actualLen, hsend, hstopped⟩ := send_entry hbytes ht
    rw [if_pos rfl]
    dsimp only
    rw [hsend]
    dsimp only
    by_cases htx : t.errCode = .noTxPackets
    · have herr : t.errCode ≠ .success := by
        rw [htx]
        decide
      have htaken := entryAttempt_taken_le ht herr
      obtain rfl := hstopped herr
      rw [htx]
      by_cases hoff : e.dataOffset ≤ e.dataLen
      · rw [if_pos ⟨rfl, by omega⟩, if_pos ⟨rfl, hoff⟩]
        rfl
      · rw [if_neg (by omega), if_neg (fun h => hoff h.2)]
        rfl
    · rw [if_neg (fun h => htx h.1), if_neg (fun h => htx h.1)]
      rfl

/-- In boot mode, `buffer_dequeue(true)` keeps the oldest entry as it is or removes it, according
to what `err_code` held. -/
theorem bufferDequeue_bootMode {s : State sdk} (uninit : ErrCode) {e : BufferEntry}
    (hmode : s.mInBootMode = true) (hc : 0 < s.bufferList.count)
    (he : s.bufferList.buffer s.bufferList.rp = e) (hin : e.InPattern) :
    bufferDequeue s uninit true = (uninit,
      { s with bufferList :=
          if uninit = .noTxPackets then bufferKeep s.bufferList e.dataOffset
          else bufferRemove s.bufferList }) := by
  rw [bufferDequeue_eq uninit true hc he hin.bytes (entryAttempt_bootMode hmode uninit e)]
  simp only [hin.offset_le, and_true, handed_nil]
  rfl

theorem bufferDequeue_false {s : State sdk} (uninit : ErrCode) (hc : 0 < s.bufferList.count) :
    bufferDequeue s uninit false =
      (.success, { s with bufferList := bufferRemove s.bufferList }) := by
  unfold bufferDequeue
  rw [if_neg (by rw [bufferListEmpty_iff]; omega), if_neg Bool.false_ne_true]

theorem bufferDequeue_empty {s : State sdk} (uninit : ErrCode) (txFlag : Bool)
    (hc : s.bufferList.count = 0) : bufferDequeue s uninit txFlag = (.notFound, s) := by
  unfold bufferDequeue
  rw [if_pos (bufferListEmpty_iff.mpr hc)]

/-- **Whatever the mode and the state**, a dequeue changes only the link, the record of
reports and the buffer, and every report it hands over is the head entry's. -/
theorem bufferDequeue_handed (s : State sdk) (uninit : ErrCode) (txFlag : Bool) :
    ∃ l rs b, (bufferDequeue s uninit txFlag).2 = { s.handed l rs with bufferList := b } ∧
      (b = s.bufferList ∨ b = bufferRemove s.bufferList ∨ ∃ a, b = bufferKeep s.bufferList a) ∧
      (∀ r ∈ rs, txFlag = true ∧ 0 < s.bufferList.count ∧
        r = entryReport s (s.bufferList.buffer s.bufferList.rp) r.result) := by
  rcases Nat.eq_zero_or_pos s.bufferList.count with hc | hc
  · exact ⟨s.link, [], s.bufferList, by rw [bufferDequeue_empty uninit txFlag hc, handed_nil],
      .inl rfl, by simp⟩
  cases txFlag with
  | false =>
    exact ⟨s.link, [], _, by rw [bufferDequeue_false uninit hc, handed_nil], .inr (.inl rfl),
      by simp⟩
  | true =>
    obtain ⟨l, rs, hs, hrs⟩ := send_handed s uninit
      (s.bufferList.buffer s.bufferList.rp).pInstance (s.bufferList.buffer s.bufferList.rp).pData
      (s.bufferList.buffer s.bufferList.rp).dataLen (s.bufferList.buffer s.bufferList.rp).dataOffset
    unfold bufferDequeue
    rw [if_neg (by rw [bufferListEmpty_iff]; omega), if_pos rfl]
    dsimp only
    rw [hs]
    split_ifs
    · exact ⟨l, rs, _, rfl, .inr (.inr ⟨_, rfl⟩), fun r hr => ⟨rfl, hc, hrs r hr⟩⟩
    · exact ⟨l, rs, _, rfl, .inr (.inl rfl), fun r hr => ⟨rfl, hc, hrs r hr⟩⟩

end SnesController
