import SnesController.BufferFifo
import SnesController.Library.RingLap

/-!
# The key buffer, overfull or not

What every call of `buffer_enqueue` and `buffer_dequeue` does, in every run of calls after
`buffer_init`: any number of enqueues, with any arguments, either mode, whatever the link answers
and whatever an uninitialised `err_code` holds.

The fullness test of `buffer_enqueue` admits a sixth entry, so the list is a ring that takes one
entry too many. It never takes a seventh, and its counters always agree (`LapInv`); and every call
does what it would with such a ring (`LapOk`): the sixth entry is put in the place of the
oldest as well as after the newest, and from then on what is done to the one is done to the other.
What is handed to the link is the oldest entry's report, again and again until it is not taken
(`entryAttempt`). Up to five entries this is the queue of `CallOk`.
-/

namespace SnesController

open RingBuffer EventRun

variable {sdk : Sdk}

/-- The counters of the list agree, it holds at most one entry too many, and the offset and the
length of every entry held are `uint8_t`. -/
structure LapInv (b : BufferList) : Prop where
  live : b.ring.Live maxBufferEntries BufferEntry.Bytes
  count_le : b.count ≤ maxBufferEntries + 1

/-- The entry as it is stored. -/
def EnqueueArgs.stored (a : EnqueueArgs) : BufferEntry :=
  ⟨u8 a.offset, u8 a.patternLen, a.pKeyPattern, a.pHids⟩

/-- **What a call does.** An enqueue is refused, and nothing changes, when six entries
are held; else it succeeds, and its entry is appended, in the place of the oldest as well when
five are held. A dequeue of the empty queue returns `NRF_ERROR_NOT_FOUND`, and nothing changes;
else it hands the oldest entry's report over as `entryAttempt` does, and returns the last answer. It
keeps the entry, advanced by the copies taken, if that was `BLE_ERROR_NO_TX_PACKETS` and the entry's
offset was not past its length; else it removes the entry and leaves its slot without data. -/
def LapOk (s : State sdk) (c : BufferCall × ErrCode) : Prop :=
  match c.1, s.bufferList.queue with
  | .enqueue a, q =>
    if q.length = maxBufferEntries + 1 then bufferCall s c = (.noMem, s)
    else (bufferCall s c).1 = .success ∧
      (bufferStep s c).bufferList.queue = lapPush maxBufferEntries a.stored q ∧
      bufferStep s c = { s with bufferList := (bufferStep s c).bufferList }
  | .dequeue _, [] => bufferCall s c = (.notFound, s)
  | .dequeue txFlag, e :: q =>
    let t := entryAttempt s c.2 txFlag e
    (bufferCall s c).1 = t.errCode ∧
      bufferStep s c =
        { s.handed t.link t.reports with bufferList := (bufferStep s c).bufferList } ∧
      (bufferStep s c).bufferList.queue =
        if t.errCode = .noTxPackets ∧ e.dataOffset ≤ e.dataLen then
          lapHead maxBufferEntries { e with dataOffset := e.dataOffset + t.taken } (e :: q)
        else lapPop maxBufferEntries { e with pData := .null } (e :: q)

theorem lapInv_init (s : State sdk) : LapInv (bufferInit s).bufferList := by
  obtain ⟨⟨halign, -⟩, -⟩ := bufferInit_queue s
  exact ⟨⟨halign, fun i hi => absurd hi (Nat.not_lt_zero i)⟩, Nat.zero_le _⟩

/-! ### The operations of the list -/

section Operations

variable {b : BufferList} {e : BufferEntry} {q : List BufferEntry}

theorem LapInv.head (h : LapInv b) (hc : 0 < b.count) : (b.buffer b.rp).Bytes := h.live.head hc

/-- The head of the queue is the entry at the read index, also of an overfull list. -/
theorem LapInv.head_eq (h : LapInv b) (hq : b.queue = e :: q) : b.buffer b.rp = e := by
  obtain ⟨c, hc⟩ : ∃ c, b.ring.count = c + 1 :=
    ⟨b.ring.count - 1, (Nat.sub_add_cancel (count_pos_of_queue hq)).symm⟩
  have hlt : b.ring.rp < maxBufferEntries := h.live.rp_lt
  rw [BufferList.queue, RingBuffer.queue, hc, List.range_succ_eq_map, List.map_cons, Nat.add_zero,
    Nat.mod_eq_of_lt hlt] at hq
  exact (List.cons.inj hq).1

theorem LapInv.enqueue (h : LapInv b) (hc : b.count ≤ maxBufferEntries) (a : EnqueueArgs) :
    LapInv (bufferEnqueue b a.pHids a.pKeyPattern a.patternLen a.offset).2 ∧
      (bufferEnqueue b a.pHids a.pKeyPattern a.patternLen a.offset).2.queue =
        lapPush maxBufferEntries a.stored b.queue := by
  have hbytes : a.stored.Bytes := ⟨Nat.mod_lt _ (by decide), Nat.mod_lt _ (by decide)⟩
  rw [bufferEnqueue_eq h.live.wp_lt hc]
  exact ⟨⟨h.live.push hbytes, Nat.succ_le_succ hc⟩, queue_lapPush h.live.toAligned hc a.stored⟩

theorem LapInv.remove (h : LapInv b) (hq : b.queue = e :: q) :
    LapInv (bufferRemove b) ∧
      (bufferRemove b).queue = lapPop maxBufferEntries { e with pData := .null } b.queue := by
  have hc := count_pos_of_queue hq
  have hbytes := h.head hc
  rw [h.head_eq hq] at hbytes
  rw [bufferRemove_eq h.live.rp_lt h.count_le, h.head_eq hq]
  exact ⟨⟨h.live.pop_leaving (x := { e with pData := .null }) hc ⟨hbytes.offset_lt, hbytes.len_lt⟩,
    (Nat.sub_le _ 1).trans h.count_le⟩, queue_lapPop h.live.toAligned hc h.count_le _⟩

theorem LapInv.keep (h : LapInv b) (hq : b.queue = e :: q) {k : ℕ}
    (hk : e.dataOffset + k ≤ e.dataLen) :
    LapInv (bufferKeep b (e.dataOffset + k)) ∧
      (bufferKeep b (e.dataOffset + k)).queue =
        lapHead maxBufferEntries { e with dataOffset := e.dataOffset + k } b.queue := by
  have hc := count_pos_of_queue hq
  have hbytes := h.head hc
  rw [h.head_eq hq] at hbytes
  have hlt : e.dataOffset + k < 256 := lt_of_le_of_lt hk hbytes.len_lt
  unfold bufferKeep
  rw [h.head_eq hq, u8_of_lt hlt]
  exact ⟨⟨h.live.setHead (x := { e with dataOffset := e.dataOffset + k }) ⟨hlt, hbytes.len_lt⟩,
    h.count_le⟩, queue_lapHead h.live.toAligned hc h.count_le _⟩

end Operations

/-! ### The calls -/

theorem enqueue_lapOk {s : State sdk} {a : EnqueueArgs} {u : ErrCode} (h : LapInv s.bufferList) :
    LapOk s (.enqueue a, u) ∧ LapInv (bufferStep s (.enqueue a, u)).bufferList := by
  simp only [LapOk, BufferList.length_queue]
  split_ifs with hover
  · have heq : bufferCall s (.enqueue a, u) = (.noMem, s) := by
      simp only [bufferCall, bufferEnqueue_full hover]
    rw [bufferStep, heq]
    exact ⟨rfl, h⟩
  · have hle : s.bufferList.count ≤ maxBufferEntries := by have := h.count_le; omega
    have hret : (bufferCall s (.enqueue a, u)).1 = .success := by
      simp only [bufferCall, bufferEnqueue_eq h.live.wp_lt hle]
    obtain ⟨hinv, hq⟩ := h.enqueue hle a
    exact ⟨⟨hret, hq, rfl⟩, hinv⟩

theorem dequeue_lapOk {s : State sdk} {txFlag : Bool} {u : ErrCode} (h : LapInv s.bufferList) :
    LapOk s (.dequeue txFlag, u) ∧ LapInv (bufferStep s (.dequeue txFlag, u)).bufferList := by
  cases hq : s.bufferList.queue with
  | nil =>
    have heq : bufferCall s (.dequeue txFlag, u) = (.notFound, s) :=
      bufferDequeue_empty u txFlag (count_eq_zero_of_queue hq)
    simp only [LapOk, hq, bufferStep, heq]
    exact ⟨trivial, h⟩
  | cons e q =>
    obtain ⟨t, ht⟩ : ∃ t, entryAttempt s u txFlag e = t := ⟨_, rfl⟩
    have hc := count_pos_of_queue hq
    have hbytes := h.head hc
    rw [h.head_eq hq] at hbytes
    have heq : bufferCall s (.dequeue txFlag, u) = _ :=
      bufferDequeue_eq u txFlag hc (h.head_eq hq) hbytes ht
    simp only [LapOk, hq, bufferStep, heq, ht, true_and]
    rw [← hq]
    split_ifs with hkept
    · obtain ⟨htx, hoff⟩ := hkept
      have htaken := entryAttempt_taken_le ht (by rw [htx]; decide)
      exact (h.keep hq (by omega)).symm
    · exact (h.remove hq).symm

/-- What one call does, and that it leaves the counters in order. -/
theorem call_lapOk {s : State sdk} (c : BufferCall × ErrCode) (h : LapInv s.bufferList) :
    LapOk s c ∧ LapInv (bufferStep s c).bufferList := by
  obtain ⟨call, u⟩ := c
  cases call with
  | enqueue a => exact enqueue_lapOk h
  | dequeue txFlag => exact dequeue_lapOk h

end SnesController
