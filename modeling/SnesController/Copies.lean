import SnesController.ReportMode
import SnesController.Library.Instalments

/-!
# The copies of a key change

A key change passed to `keys_send` with a pattern of length `L` is owed `L + 1` reports. The
firmware passes the two bytes of `keypad_state`; here `keys_send` may also be called with any
pattern that fits a report, so that the changes have patterns of every such length.

A tally is kept by watching the run: the length of the pattern of each change, the change whose
entry was last put in each slot, and the reports accepted for each change, when it was passed to
`keys_send` and when its entry was dequeued. It is that of debts paid in instalments: on an
uninterrupted connection in report mode every change is accounted for at all times
(`copies_conserved`), from whatever state the connection begins in, as long as the buffer never
overflows.
-/

namespace SnesController

open RingBuffer EventRun Instalments

variable {sdk : Sdk}

/-! ### The operations -/

/-- **A key pattern** that fits a report. -/
structure Pattern where
  ptr : PatternPtr
  len : ℕ
  len_le : len ≤ joystickInputReportKeysMaxLen - 2

/-- An event, or a call of `keys_send`. -/
inductive KeyOp where
  | event (i : Input)
  | keysSend (pattern : Pattern) (uninit : ErrCode)

/-- **One operation.** -/
def opStep (s : State sdk) : KeyOp → State sdk
  | .event i => step s i
  | .keysSend pattern uninit => SnesController.keysSend s uninit pattern.len pattern.ptr

/-- The length of the pattern the operation passes to `keys_send`, if it calls it. -/
def KeyOp.passes (s : State sdk) : KeyOp → Option ℕ
  | .event i => if callsKeysSend s i.evt then some 2 else none
  | .keysSend pattern _ => some pattern.len

/-- The reports between two states were taken by the link, or it had no room for them. -/
def Answered (s s' : State sdk) : Prop :=
  ∀ r ∈ s'.reports.drop s.reports.length, r.result = .success ∨ r.result = .noTxPackets

/-- **An operation on an uninterrupted connection in report mode**: the link takes every report or
has no room for it, and the buffer does not overflow. -/
def UninterruptedOp (s : State sdk) : KeyOp → Prop
  | .event i => Uninterrupted s i
  | .keysSend pattern uninit =>
    Answered s (opStep s (.keysSend pattern uninit)) ∧
      (opStep s (.keysSend pattern uninit)).bufferList.count ≤ maxBufferEntries

instance (s : State sdk) : (o : KeyOp) → Decidable (UninterruptedOp s o)
  | .event i => inferInstanceAs (Decidable (Uninterrupted s i))
  | .keysSend pattern uninit =>
    inferInstanceAs (Decidable ((∀ r ∈ (opStep s (.keysSend pattern uninit)).reports.drop
      s.reports.length, r.result = .success ∨ r.result = .noTxPackets) ∧
      (opStep s (.keysSend pattern uninit)).bufferList.count ≤ maxBufferEntries))

/-! ### The tally -/

/-- **What is kept of a run.** The changes are numbered from 0 in the order they are passed to
`keys_send`. -/
structure Tally where
  /-- The lengths of the patterns of the changes, in order. -/
  lengths : List ℕ
  /-- The change last enqueued in each slot, if it was since the run began. -/
  owner : ℕ → Option ℕ
  /-- The reports accepted for each change; `none` is for entries from before. -/
  accepted : Option ℕ → ℕ

/-- At the start of a run. -/
def Tally.start : Tally := ⟨[], fun _ => none, fun _ => 0⟩

/-- How many of the reports handed over between two states were accepted. -/
def newlyAccepted (s s' : State sdk) : ℕ :=
  (s'.reports.drop s.reports.length).countP fun r => r.accepted

/-- The tally after a change was passed to `keys_send`. -/
def Tally.passed (t : Tally) (s s' : State sdk) (len : ℕ) : Tally where
  lengths := t.lengths ++ [len]
  owner := if s.bufferList.count < s'.bufferList.count
    then Function.update t.owner s.bufferList.wp (some t.lengths.length) else t.owner
  accepted := Function.update t.accepted (some t.lengths.length) (newlyAccepted s s')

/-- The tally after any other operation: what it hands over is for the oldest entry. -/
def Tally.dequeued (t : Tally) (s s' : State sdk) : Tally :=
  { t with
    accepted := Function.update t.accepted (t.owner s.bufferList.rp)
      (t.accepted (t.owner s.bufferList.rp) + newlyAccepted s s') }

/-- The tally after an operation. -/
def tally (t : Tally) (s : State sdk) (o : KeyOp) (s' : State sdk) : Tally :=
  match o.passes s with
  | some len => t.passed s s' len
  | none => t.dequeued s s'

/-- A state and the tally of the run to it. -/
abbrev Tallied (sdk : Sdk) := State sdk × Tally

/-- One operation, tallied. -/
def tallied (c : Tallied sdk) (o : KeyOp) : Tallied sdk := observed opStep tally c o

/-- The reports an entry still owes. -/
def BufferEntry.owed (e : BufferEntry) : ℕ := e.dataLen - e.dataOffset + 1

/-- The entries buffered, each with the change it is of. -/
def BufferList.entries (b : BufferList) (owner : ℕ → Option ℕ) : List (Option ℕ × BufferEntry) :=
  (b.ring.labelled owner).queue maxBufferEntries

/-- **The books**: the reports accepted for each change, and the entries buffered. -/
def books (c : Tallied sdk) : Books (Option ℕ) BufferEntry :=
  ⟨c.2.accepted, c.1.bufferList.entries c.2.owner⟩

theorem newlyAccepted_eq {s s' : State sdk} {rs : List Report}
    (h : s'.reports = s.reports ++ rs) : newlyAccepted s s' = rs.countP fun r => r.accepted := by
  rw [newlyAccepted, h, List.drop_left]

/-- Copies that are all accepted. -/
theorem newlyAccepted_copies {s s' : State sdk} {k : ℕ} {r : Report} (hr : r.accepted)
    (h : s'.reports = s.reports ++ List.replicate k r) : newlyAccepted s s' = k := by
  rw [newlyAccepted_eq h, List.countP_replicate, if_pos (decide_eq_true hr)]

/-- Copies that are accepted, and one that is not. -/
theorem newlyAccepted_stopped {s s' : State sdk} {k : ℕ} {r x : Report} (hr : r.accepted)
    (hx : ¬ x.accepted) (h : s'.reports = s.reports ++ (List.replicate k r ++ [x])) :
    newlyAccepted s s' = k := by
  rw [newlyAccepted_eq h, List.countP_append, List.countP_replicate,
    if_pos (decide_eq_true hr)]
  simp [hx]

/-! ### The entries, under the operations of the buffer -/

theorem entries_bufferEnqueue {b : BufferList} (h : b.WF) (hc : b.count < maxBufferEntries)
    (owner : ℕ → Option ℕ) (l : Option ℕ) (pHids : HidsPtr) (p : PatternPtr) {patternLen offset : ℕ}
    (hl : patternLen < 256) (ho : offset < 256) :
    (bufferEnqueue b pHids p patternLen offset).2.entries (Function.update owner b.wp l) =
      b.entries owner ++ [(l, ⟨offset, patternLen, p, pHids⟩)] := by
  simp only [BufferList.entries]
  rw [ring_bufferEnqueue h, u8_of_lt hl, u8_of_lt ho]
  exact (congrArg _ (labelled_push b.ring owner l _)).trans
    (queue_push (RingBuffer.WF.labelled h owner) hc _)

theorem entries_bufferRemove {b : BufferList} (h : b.WF) (hc : 0 < b.count)
    (owner : ℕ → Option ℕ) : (bufferRemove b).entries owner = (b.entries owner).tail := by
  simp only [BufferList.entries]
  rw [ring_bufferRemove h, labelled_pop]
  exact queue_pop (RingBuffer.WF.labelled h owner) hc _

theorem entries_bufferKeep {b : BufferList} (h : b.WF) (hc : 0 < b.count)
    (owner : ℕ → Option ℕ) {actualLen : ℕ} (ha : actualLen < 256) :
    (bufferKeep b actualLen).entries owner =
      (owner b.rp, { b.buffer b.rp with dataOffset := actualLen }) :: (b.entries owner).tail := by
  simp only [BufferList.entries]
  rw [ring_bufferKeep, u8_of_lt ha, labelled_setHead]
  exact queue_setHead (RingBuffer.WF.labelled h owner) hc _

theorem entries_eq_cons {b : BufferList} (h : b.WF) {e : BufferEntry} {q : List BufferEntry}
    (hq : b.queue = e :: q) (owner : ℕ → Option ℕ) :
    b.entries owner = (owner b.rp, e) :: (b.entries owner).tail := by
  have hcons := queue_eq_cons (RingBuffer.WF.labelled h owner) (count_pos_of_queue hq)
  have hhead : (b.ring.labelled owner).slots b.rp = (owner b.rp, e) := by
    rw [← head_of_queue h hq]
    rfl
  unfold BufferList.entries
  rw [hcons, List.tail_cons, ← hhead]
  rfl

/-! ### What an operation does to the books -/

/-- The link does not answer with anything else. -/
theorem Answered.not_failed {s s' : State sdk} (h : Answered s s') {rs : List Report} {x : Report}
    (hr : s'.reports = s.reports ++ (rs ++ [x])) (hs : x.result ≠ .success) :
    x.result = .noTxPackets := by
  have hmem : x ∈ s'.reports.drop s.reports.length := by
    rw [hr, List.drop_left]
    exact List.mem_append_right _ (List.mem_singleton_self x)
  exact (h x hmem).resolve_left hs

/-- What `keys_send` has accepted, and what it buffers. -/
theorem KeysSent.copies {s s' : State sdk} {p : PatternPtr} {len : ℕ} (h : KeysSent s p len s')
    (hanswers : Answered s s') :
    newlyAccepted s s' = len + 1 ∧ s'.bufferList = s.bufferList ∨
      ∃ k ≤ len, newlyAccepted s s' = k ∧
        s'.bufferList = (bufferEnqueue s.bufferList .mHids p len k).2 := by
  cases h with
  | sent l _ =>
    exact .inl ⟨newlyAccepted_copies (r := keyReport s .mHids p len .success) rfl rfl, rfl⟩
  | held l k hk _ =>
    refine .inr ⟨k, hk, ?_, rfl⟩
    exact newlyAccepted_stopped (r := keyReport s .mHids p len .success)
      (x := keyReport s .mHids p len .noTxPackets) rfl nofun rfl
  | failed l k err es herr htx _ =>
    exact absurd (hanswers.not_failed (x := keyReport s .mHids p len err) rfl herr) htx

/-- What a dequeue has accepted, and what it keeps. -/
theorem Dequeues.copies {s : State sdk} {e : BufferEntry} {r : ErrCode × State sdk}
    (h : Dequeues s e r) (hanswers : Answered s r.2) :
    newlyAccepted s r.2 = e.owed ∧ r.2.bufferList = bufferRemove s.bufferList ∨
      ∃ k, e.dataOffset + k ≤ e.dataLen ∧ newlyAccepted s r.2 = k ∧
        r.2.bufferList = bufferKeep s.bufferList (e.dataOffset + k) := by
  cases h with
  | done l =>
    exact .inl ⟨newlyAccepted_copies (r := entryReport s e .success) rfl rfl, rfl⟩
  | kept l k hk =>
    refine .inr ⟨k, hk, ?_, rfl⟩
    exact newlyAccepted_stopped (r := entryReport s e .success)
      (x := entryReport s e .noTxPackets) rfl nofun rfl
  | failed l k err herr htx _ =>
    exact absurd (hanswers.not_failed (x := entryReport s e err) rfl herr) htx

/-- A transmission by `keys_send` opens the account of a change. -/
theorem KeysSent.opens {s s' : State sdk} {p : PatternPtr} {len : ℕ} (h : KeysSent s p len s')
    (hwf : s.bufferList.WF) (hlen : len ≤ 2) (hanswers : Answered s s')
    (hfits : s'.bufferList.count ≤ maxBufferEntries) (t : Tally) :
    Opens BufferEntry.owed (some t.lengths.length) (len + 1) (books (s, t))
      (books (s', t.passed s s' len)) := by
  simp only [books, Tally.passed]
  obtain ⟨hacc, hb⟩ | ⟨k, hk, hacc, hb⟩ := h.copies hanswers
  · rw [hacc, hb, if_neg (Nat.lt_irrefl _)]
    exact .off
  · have hcount : (bufferEnqueue s.bufferList .mHids p len k).2.count = s.bufferList.count + 1 := by
      rw [bufferEnqueue_eq hwf.wp_lt hwf.count_le]
    have hlt : s.bufferList.count < maxBufferEntries := by
      rw [hb, hcount] at hfits
      exact hfits
    rw [hacc, hb, if_pos (by omega),
      entries_bufferEnqueue hwf hlt t.owner _ _ _ (by omega) (by omega)]
    apply Opens.part _ k
    show len - k + 1 + k = len + 1
    omega

/-- A dequeue pays the account of the change whose entry is the oldest. -/
theorem Dequeues.pays {s : State sdk} {e : BufferEntry} {q : List BufferEntry}
    {r : ErrCode × State sdk} (h : Dequeues s e r) (hwf : s.bufferList.WF)
    (hq : s.bufferList.queue = e :: q) (hin : e.InPattern) (hanswers : Answered s r.2) (t : Tally) :
    Pays BufferEntry.owed (books (s, t)) (books (r.2, t.dequeued s r.2)) := by
  have hc := count_pos_of_queue hq
  have hcons := entries_eq_cons hwf hq t.owner
  simp only [books, Tally.dequeued]
  obtain ⟨hacc, hb⟩ | ⟨k, hk, hacc, hb⟩ := h.copies hanswers
  · rw [hacc, hb, entries_bufferRemove hwf hc]
    exact .off hcons
  · have hlen : e.dataLen ≤ 2 := hin.len_le
    rw [hacc, hb, entries_bufferKeep hwf hc _ (by omega), head_of_queue hwf hq]
    apply Pays.part _ k hcons
    show e.dataLen - (e.dataOffset + k) + 1 + k = e.dataLen - e.dataOffset + 1
    omega

/-- An operation that leaves the key path alone leaves the books alone. -/
theorem books_same {s s' : State sdk} (h : KeysSame s s') (t : Tally) :
    books (s', t.dequeued s s') = books (s, t) := by
  have hacc : newlyAccepted s s' = 0 := by
    rw [newlyAccepted, h.reports, List.drop_length]
    rfl
  simp only [books, Tally.dequeued]
  rw [hacc, h.bufferList, Nat.add_zero, Function.update_eq_self]

/-! ### Every change is accounted for -/

/-- What is kept along the run. -/
structure CopyInv (c : Tallied sdk) : Prop where
  wf : c.1.bufferList.WF
  mode : c.1.mInBootMode = false
  slots : SlotsInPattern c.1.bufferList
  /-- The changes that wait have been passed to `keys_send`. -/
  known : ∀ d ∈ (books c).waiting, ∀ n, d.1 = some n → n < c.2.lengths.length
  balanced : ∀ n len, c.2.lengths[n]? = some len →
    Balanced BufferEntry.owed (books c) (some n) (len + 1)

/-- **What an operation does to the books**: nothing, a change is opened, or one is paid for. -/
inductive OpEffect (c c' : Tallied sdk) : Prop where
  | same : c'.2.lengths = c.2.lengths → books c' = books c → OpEffect c c'
  | opens (len : ℕ) : c'.2.lengths = c.2.lengths ++ [len] →
      Opens BufferEntry.owed (some c.2.lengths.length) (len + 1) (books c) (books c') →
      OpEffect c c'
  | pays : c'.2.lengths = c.2.lengths → Pays BufferEntry.owed (books c) (books c') → OpEffect c c'

theorem tallied_passed {c : Tallied sdk} {o : KeyOp} {len : ℕ} (h : o.passes c.1 = some len) :
    tallied c o = (opStep c.1 o, c.2.passed c.1 (opStep c.1 o) len) := by
  simp [tallied, observed, tally, h]

theorem tallied_dequeued {c : Tallied sdk} {o : KeyOp} (h : o.passes c.1 = none) :
    tallied c o = (opStep c.1 o, c.2.dequeued c.1 (opStep c.1 o)) := by
  simp [tallied, observed, tally, h]

/-- An event that leaves the key path alone. -/
theorem keysSame_opEffect {c : Tallied sdk} {i : Input} (hsame : KeysSame c.1 (step c.1 i))
    (hcalls : callsKeysSend c.1 i.evt = false) : OpEffect c (tallied c (.event i)) := by
  rw [tallied_dequeued (by simp [KeyOp.passes, hcalls])]
  exact .same rfl (books_same hsame c.2)

theorem rxDone_opEffect {c : Tallied sdk} {b₀ b₁ : UInt8} {u : ErrCode} (hI : CopyInv c)
    (hA : Uninterrupted c.1 ⟨.uart (.rxDone b₀ b₁), u⟩) :
    OpEffect c (tallied c (.event ⟨.uart (.rxDone b₀ b₁), u⟩)) := by
  by_cases hne : combinedState (b₀, b₁) = c.1.keypadState
  · have hsame : KeysSame c.1 (step c.1 ⟨.uart (.rxDone b₀ b₁), u⟩) := by
      rw [step_rxDone_of_eq u hne]
      exact ⟨rfl, rfl, rfl, rfl⟩
    exact keysSame_opEffect hsame (by simp [callsKeysSend, hne])
  · have hsent := keysSend_cases (s := changedState c.1 b₀ b₁) u .keypadState hI.mode
      (by omega : 2 + 1 < 65536)
    have hanswers : Answered c.1 (step c.1 ⟨.uart (.rxDone b₀ b₁), u⟩) := hA.answers
    have hfits := hA.fits
    rw [tallied_passed (show KeyOp.passes _ _ = some 2 by simp [KeyOp.passes, callsKeysSend, hne])]
    simp only [opStep]
    rw [step_rxDone_of_ne u hne] at hanswers hfits ⊢
    exact .opens 2 rfl (hsent.opens hI.wf (Nat.le_refl 2) hanswers hfits c.2)

theorem txComplete_opEffect {c : Tallied sdk} {n : ℕ} {u : ErrCode} (hI : CopyInv c)
    (hA : Uninterrupted c.1 ⟨.ble (.txComplete n), u⟩) :
    OpEffect c (tallied c (.event ⟨.ble (.txComplete n), u⟩)) := by
  cases hq : c.1.bufferList.queue with
  | nil =>
    have hsame : KeysSame c.1 (step c.1 ⟨.ble (.txComplete n), u⟩) := by
      rw [step_txComplete,
        bufferDequeue_empty (s := deliver c.1 _) u true (count_eq_zero_of_queue hq)]
      exact ⟨rfl, rfl, rfl, rfl⟩
    exact keysSame_opEffect hsame rfl
  | cons e q =>
    have hin : e.InPattern := by
      rw [← head_of_queue hI.wf hq]
      exact hI.slots c.1.bufferList.rp
    have hdeq := bufferDequeue_true (s := deliver c.1 (.ble (.txComplete n))) u hI.mode
      (count_pos_of_queue hq) (head_of_queue hI.wf hq) hin
    have hanswers : Answered c.1 (step c.1 ⟨.ble (.txComplete n), u⟩) := hA.answers
    rw [tallied_dequeued rfl]
    simp only [opStep]
    rw [step_txComplete] at hanswers ⊢
    exact .pays rfl (hdeq.pays hI.wf hq hin hanswers c.2)

/-- **One operation on an uninterrupted connection in report mode.** -/
theorem opEffect {c : Tallied sdk} {o : KeyOp} (hI : CopyInv c) (hA : UninterruptedOp c.1 o) :
    OpEffect c (tallied c o) := by
  cases o with
  | keysSend pattern u =>
    have hlen : pattern.len ≤ 2 := pattern.len_le
    have hsent := keysSend_cases (s := c.1) u pattern.ptr hI.mode
      (by omega : pattern.len + 1 < 65536)
    exact .opens pattern.len rfl (hsent.opens hI.wf hlen hA.1 hA.2 c.2)
  | event i =>
    obtain ⟨e, u⟩ := i
    cases e with
    | uart e =>
      cases e with
      | rxDone b₀ b₁ => exact rxDone_opEffect hI hA
      | error | txDone => exact keysSame_opEffect (step_keysSame id) rfl
    | ble e =>
      cases e with
      | txComplete n => exact txComplete_opEffect hI hA
      | disconnected => exact absurd rfl hA.connected
      | _ => exact keysSame_opEffect (step_keysSame id) rfl
    | hids e =>
      cases e with
      | bootModeEntered => exact absurd rfl hA.reportMode
      | reportModeEntered => exact keysSame_opEffect ⟨rfl, rfl, hI.mode.symm, rfl⟩ rfl
      | _ => exact keysSame_opEffect (step_keysSame id) rfl
    | pm e | adv e | adc e => exact keysSame_opEffect (step_keysSame id) rfl

/-- What an operation does to the buffer and the mode, whatever it does to the books. -/
theorem opStep_buffer {s : State sdk} {o : KeyOp} (hwf : s.bufferList.WF)
    (hmode : s.mInBootMode = false) (hslots : SlotsInPattern s.bufferList)
    (hA : UninterruptedOp s o) :
    (opStep s o).bufferList.WF ∧ (opStep s o).mInBootMode = false ∧
      SlotsInPattern (opStep s o).bufferList := by
  cases o with
  | event i => exact ⟨step_wf hwf hA.fits, step_mode hA.reportMode hmode, step_slots hslots i⟩
  | keysSend pattern u =>
    obtain ⟨-, hfits⟩ := hA
    have hslots' := keysSend_slots hslots u pattern.len_le pattern.ptr
    obtain ⟨l, rs, b, es, heq, hb, -⟩ := keysSend_handed s u pattern.len pattern.ptr
    simp only [opStep] at hfits ⊢
    refine ⟨?_, ?_, hslots'⟩
    · rw [heq] at hfits ⊢
      rcases hb with rfl | ⟨k, rfl⟩
      · exact hwf
      · exact hwf.enqueue hfits
    · rw [heq]
      exact hmode

/-- Only changes that were passed to `keys_send` wait. -/
theorem OpEffect.known {c c' : Tallied sdk} (h : OpEffect c c') (hI : CopyInv c) :
    ∀ d ∈ (books c').waiting, ∀ n, d.1 = some n → n < c'.2.lengths.length := by
  cases h with
  | same hlen hbooks =>
    rw [hlen, hbooks]
    exact hI.known
  | pays hlen hpays =>
    intro d hd n hn
    obtain ⟨d', hd', howner⟩ := hpays.owner_mem hd
    rw [hlen]
    exact hI.known d' hd' n (howner.trans hn)
  | opens len hlen hopens =>
    intro d hd n hn
    rw [hlen, List.length_append, List.length_singleton]
    rcases hopens.owner_mem hd with hd | howner
    · exact Nat.lt_succ_of_lt (hI.known d hd n hn)
    · rw [hn, Option.some.injEq] at howner
      omega

/-- The changes from before stay accounted for, and so is a new one. -/
theorem OpEffect.balanced {c c' : Tallied sdk} (h : OpEffect c c') (hI : CopyInv c) {n len : ℕ}
    (hn : c'.2.lengths[n]? = some len) :
    Balanced BufferEntry.owed (books c') (some n) (len + 1) := by
  cases h with
  | same hlen hbooks =>
    rw [hlen] at hn
    rw [hbooks]
    exact hI.balanced n len hn
  | pays hlen hpays =>
    rw [hlen] at hn
    exact (hI.balanced n len hn).pays hpays
  | opens new hlen hopens =>
    rw [hlen] at hn
    rcases Nat.lt_or_ge n c.2.lengths.length with hold | hnew
    · rw [List.getElem?_append_left hold] at hn
      refine (hI.balanced n len hn).opens ?_ hopens
      rw [Ne, Option.some.injEq]
      omega
    · -- the change just passed to `keys_send`
      obtain rfl : n = c.2.lengths.length := by
        have hlt := (List.getElem?_eq_some_iff.mp hn).1
        rw [List.length_append, List.length_singleton] at hlt
        omega
      rw [List.getElem?_concat_length, Option.some.injEq] at hn
      subst hn
      apply balanced_of_opens _ hopens
      intro d hd howner
      exact Nat.lt_irrefl _ (hI.known d hd _ howner)

/-- An operation keeps every change accounted for. -/
theorem CopyInv.tallied {c : Tallied sdk} {o : KeyOp} (hI : CopyInv c)
    (hA : UninterruptedOp c.1 o) : CopyInv (tallied c o) := by
  obtain ⟨hwf, hmode, hslots⟩ := opStep_buffer hI.wf hI.mode hI.slots hA
  have heff := opEffect hI hA
  exact ⟨hwf, hmode, hslots, heff.known hI, fun _ _ hn => heff.balanced hI hn⟩

/-- At the start of a run nothing is accounted for yet. -/
theorem copyInv_start {s : State sdk} (hwf : s.bufferList.WF) (hmode : s.mInBootMode = false)
    (hslots : SlotsInPattern s.bufferList) : CopyInv (s, Tally.start) := by
  refine ⟨hwf, hmode, hslots, ?_, nofun⟩
  intro d hd n hn
  obtain ⟨i, -, rfl⟩ := List.mem_map.mp hd
  cases hn

/-- **The copies of every change are accounted for**: every entry buffered has an offset within its
pattern, and every change, of a pattern of length `L`, waits in the buffer at most once, and the
reports accepted for it and those its entry still owes are `L + 1`. -/
structure CopiesAccounted (c : Tallied sdk) : Prop where
  offset_le : ∀ e ∈ c.1.bufferList.queue, e.dataOffset ≤ e.dataLen
  balanced : ∀ n len, c.2.lengths[n]? = some len →
    Balanced BufferEntry.owed (books c) (some n) (len + 1)

theorem CopyInv.accounted {c : Tallied sdk} (hI : CopyInv c) : CopiesAccounted c := by
  refine ⟨?_, hI.balanced⟩
  intro e he
  obtain ⟨i, -, rfl⟩ := List.mem_map.mp he
  exact (hI.slots _).offset_le

/-- The buffer has room after the event. -/
def Fits (s : State sdk) (i : Input) : Prop := (step s i).bufferList.count ≤ maxBufferEntries

theorem wf_run {link : sdk.Link} {pm : sdk.Pm} {uart : sdk.Uart} {es : List Input}
    (h : Along step Fits (boot link pm uart) es) :
    (run step (boot link pm uart) es).bufferList.WF :=
  Along.run_inv (I := fun s : State sdk => s.bufferList.WF) (fun _ _ hI hA => step_wf hI hA) h
    (bufferInit_queue (State.reset link pm uart)).1

/-- **Resumed transmission neither repeats nor drops copies**: after events during which the buffer
never overflowed, in report mode, every change passed to `keys_send` is accounted for after every
operation of an uninterrupted run, whatever the order of changes and completed transmissions and
whatever the link answers. -/
theorem copies_conserved (link : sdk.Link) (pm : sdk.Pm) (uart : sdk.Uart) (es : List Input)
    (hfits : Along step Fits (boot link pm uart) es)
    (hmode : (run step (boot link pm uart) es).mInBootMode = false) {ops : List KeyOp}
    (hA : Along opStep UninterruptedOp (run step (boot link pm uart) es) ops) :
    ∀ p, p <+: ops →
      CopiesAccounted (run tallied (run step (boot link pm uart) es, Tally.start) p) := by
  rintro p ⟨rest, rfl⟩
  have hp := (along_append.mp hA).1
  have hstart := copyInv_start (wf_run hfits) hmode (slots_run link pm uart es)
  have hrun : Along tallied (fun c o => UninterruptedOp c.1 o)
      (run step (boot link pm uart) es, Tally.start) p := along_observed.mpr hp
  exact (Along.run_inv (fun _ _ hI hA => hI.tallied hA) hrun hstart).accounted

/-- Three TX buffers: a change is sent outright, the next is held back, and so is one with a pattern
of one byte; the second is then sent in two parts, and the third after it. -/
def interrupted : List KeyOp :=
  [.event (frame 0 1), .event (frame 0 2), .keysSend ⟨.obj 0, 1, by decide⟩ .success,
    .event (txComplete 2), .event (txComplete 3), .event (txComplete 1)]

theorem copies_conserved_interrupted :
    CopiesAccounted (run tallied (deviceBoot 3, Tally.start) interrupted) :=
  copies_conserved (deviceLink 3) (devicePm 3) (deviceUart 3) [] trivial rfl (by decide)
    interrupted List.prefix_rfl

example : (run tallied (deviceBoot 3, Tally.start) interrupted).2.lengths = [2, 2, 1] ∧
    [0, 1, 2].map (fun n => (run tallied (deviceBoot 3, Tally.start) interrupted).2.accepted
      (some n)) = [3, 3, 2] := by decide

end SnesController
