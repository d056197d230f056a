import SnesController.Interrupted
import SnesController.Bounds

/-!
# What stays in bounds, under interrupts

Nothing is asked of the run here: events in any order, interrupts between any two statements of
`buffer_dequeue`, either mode, a buffer that is overfull, counts that get lost. The list may then be
no queue any more, and `rp` may lag behind what was written.

Still no index leaves its array, the count never falls below zero, no copy reads more than the two
bytes of `keypad_state`, and what is transmitted from a slot was written there by `keys_send`
(`preempted_inBounds`). What carries this is that a count can only be lost, not made up: while `wp`
has not come to the end of the array for the first time, `rp` and the count together are at most
`wp`, and after that every slot has been written.
-/

namespace SnesController

open RingBuffer EventRun Interleaving

variable {sdk : Sdk}

/-- **What a statement accesses**: slots of the array, bytes of `keypad_state` and of the report,
and a count that is not zero before it is lowered. -/
def Statement.Within (b : BufferList) : Statement → Prop
  | .empty | .advance | .wrap | .rest => True
  | .element | .clear => b.rp < maxBufferEntries
  | .arguments p => p < maxBufferEntries ∧ (b.buffer p).Made
  | .copy f i data => f.pHids = .mHids ∧ f.dataLen = 2 ∧ i ≤ 2 ∧ data.length = i
  | .send f data => f.pHids = .mHids ∧ data.length = 2
  | .sent f => f.pElement < maxBufferEntries
  | .keep p actualLen => p < maxBufferEntries ∧ actualLen ≤ (b.buffer p).dataLen
  | .load => 0 < b.count
  | .store count => 0 < count ∧ count ≤ maxBufferEntries + 1

/-- **What stays in bounds**: `rp` is past the array only until the test for its end, and nothing is
indexed with it there. -/
structure PreemptedInBounds (m : Preempted sdk) : Prop where
  rp_le : m.state.bufferList.rp ≤ maxBufferEntries
  wp_lt : m.state.bufferList.wp < maxBufferEntries
  count_le : m.state.bufferList.count ≤ maxBufferEntries + 1
  within : (nextStatement m).Within m.state.bufferList
  slots : SlotsInPattern m.state.bufferList
  reports : ∀ r ∈ m.state.reports, r.Fits

/-! ### The list -/

/-- Every slot that is in use has been written. -/
structure Placed (b : BufferList) : Prop where
  rp_lt : b.rp < maxBufferEntries
  wp_lt : b.wp < maxBufferEntries
  written : (∀ j < maxBufferEntries, (b.buffer j).Made) ∨
    b.rp + b.count ≤ b.wp ∧ ∀ j < b.wp, (b.buffer j).Made

theorem Placed.head {b : BufferList} (h : Placed b) (hc : 0 < b.count) :
    (b.buffer b.rp).Made := by
  rcases h.written with hall | ⟨hle, hbelow⟩
  · exact hall _ h.rp_lt
  · exact hbelow _ (by omega)

/-- Another entry in the oldest one's slot. -/
theorem Placed.setHead {b : BufferList} (h : Placed b) {e : BufferEntry} (he : e.Made) :
    Placed { b with buffer := Function.update b.buffer b.rp e } := by
  refine ⟨h.rp_lt, h.wp_lt, ?_⟩
  rcases h.written with hall | ⟨hle, hbelow⟩
  · exact .inl (slots_update (fun j e => j < maxBufferEntries → e.Made) hall fun _ => he)
  · exact .inr ⟨hle, slots_update (fun j e => j < b.wp → e.Made) hbelow fun _ => he⟩

theorem Placed.remove {b : BufferList} (h : Placed b) (hle : b.count ≤ maxBufferEntries + 1)
    (hc : 0 < b.count) : Placed (bufferRemove b) := by
  have hhead := h.head hc
  have hwritten := (h.setHead (e := { b.buffer b.rp with pData := .null })
    ⟨hhead.pInstance, .inr rfl, hhead.dataLen⟩).written
  rw [bufferRemove_eq h.rp_lt hle]
  refine ⟨next_lt h.rp_lt, h.wp_lt, ?_⟩
  rcases hwritten with hall | ⟨hsum, hbelow⟩
  · exact .inl hall
  · refine .inr ⟨?_, hbelow⟩
    have hwp := h.wp_lt
    dsimp only at hsum ⊢
    unfold next
    split_ifs <;> omega

theorem Placed.keep {b : BufferList} (h : Placed b) (hc : 0 < b.count) (actualLen : ℕ) :
    Placed (bufferKeep b actualLen) := by
  have hhead := h.head hc
  exact h.setHead ⟨hhead.pInstance, hhead.pData, hhead.dataLen⟩

/-- An entry is written at `wp`; its count may get lost. -/
theorem Placed.push {b b' : BufferList} (h : Placed b) {e : BufferEntry} (he : e.Made)
    (hbuffer : b'.buffer = Function.update b.buffer b.wp e) (hrp : b'.rp = b.rp)
    (hwp : b'.wp = next maxBufferEntries b.wp) (hcount : b'.count ≤ b.count + 1) : Placed b' := by
  obtain ⟨hrp_lt, hwp_lt, hwritten⟩ := h
  refine ⟨hrp ▸ hrp_lt, hwp ▸ next_lt hwp_lt, ?_⟩
  rw [hbuffer, hrp, hwp]
  rcases hwritten with hall | ⟨hsum, hbelow⟩
  · exact .inl (slots_update (fun j e => j < maxBufferEntries → e.Made) hall fun _ => he)
  · have hupto : ∀ j < b.wp + 1, (Function.update b.buffer b.wp e j).Made := by
      intro j hj
      rcases Nat.lt_succ_iff_lt_or_eq.mp hj with hlt | rfl
      · exact slots_update (fun j e => j < b.wp → e.Made) hbelow (fun _ => he) j hlt
      · rw [Function.update_self]
        exact he
    unfold next
    split_ifs with hend
    · rw [hend] at hupto
      exact .inl hupto
    · exact .inr ⟨by omega, hupto⟩

/-! ### What the proofs carry -/

/-- What the main loop expects of the list; the count it has read may be old. -/
def Expects (b : BufferList) : Statement → Prop
  | .advance => b.rp < maxBufferEntries ∧ 0 < b.count
  | .store count => 0 < count ∧ count ≤ b.count
  | next => Relies b next

/-- What its locals hold. -/
def LocalsFit : Statement → Prop
  | .copy f i data => f.Whole ∧ i ≤ 2 ∧ data.length = i
  | .send f data => f.Whole ∧ data.length = 2
  | .keep _ actualLen => actualLen ≤ 2
  | _ => True

/-- **What the proofs carry.** -/
structure SafeInv (m : Preempted sdk) : Prop where
  placed : Placed (settled m)
  rp_le : m.state.bufferList.rp ≤ maxBufferEntries
  count_le : m.state.bufferList.count ≤ maxBufferEntries + 1
  expects : Expects m.state.bufferList (nextStatement m)
  locals : LocalsFit (nextStatement m)
  slots : SlotsInPattern m.state.bufferList
  reports : ∀ r ∈ m.state.reports, r.Fits

/-- It says enough. -/
theorem SafeInv.inBounds {m : Preempted sdk} (h : SafeInv m) : PreemptedInBounds m := by
  obtain ⟨hplaced, hrp, hcount, hexpects, hlocals, hslots, hreports⟩ := h
  unfold settled at hplaced
  refine ⟨hrp, ?_, hcount, ?_, hslots, hreports⟩
  · have hwp := hplaced.wp_lt
    generalize nextStatement m = next at hwp
    cases next <;> exact hwp
  · generalize nextStatement m = next at hplaced hexpects hlocals ⊢
    cases next with
    | empty | advance | wrap | rest => trivial
    | element | clear => exact hplaced.rp_lt
    | arguments p =>
      obtain ⟨rfl, hc⟩ := hexpects
      exact ⟨hplaced.rp_lt, hplaced.head hc⟩
    | copy f i data => exact ⟨hlocals.1.pHids, hlocals.1.dataLen, hlocals.2⟩
    | send f data => exact ⟨hlocals.1.pHids, hlocals.2⟩
    | sent f =>
      rw [Statement.Within, hexpects.1]
      exact hplaced.rp_lt
    | keep p a =>
      obtain ⟨rfl, hc⟩ := hexpects
      have hhead : (m.state.bufferList.buffer m.state.bufferList.rp).Made := hplaced.head hc
      refine ⟨hplaced.rp_lt, ?_⟩
      rw [hhead.dataLen]
      exact hlocals
    | load => exact hexpects
    | store count => exact ⟨hexpects.1, hexpects.2.trans hcount⟩

/-- What touches neither the list nor the reports keeps it. -/
theorem SafeInv.same {m m' : Preempted sdk} (h : SafeInv m)
    (hnext : nextStatement m' = nextStatement m)
    (hb : m'.state.bufferList = m.state.bufferList) (hr : m'.state.reports = m.state.reports) :
    SafeInv m' := by
  obtain ⟨hplaced, hrp, hcount, hexpects, hlocals, hslots, hreports⟩ := h
  unfold settled at hplaced
  rw [← hb] at hplaced hrp hcount hexpects hslots
  rw [← hnext] at hplaced hexpects hlocals
  rw [← hr] at hreports
  exact ⟨hplaced, hrp, hcount, hexpects, hlocals, hslots, hreports⟩

/-! ### The main loop's statements -/

theorem length_load (s : State sdk) (p : PatternPtr) {n : ℕ} (h : n ≤ 2) :
    (s.load p n).length = n := by
  cases p <;> simp [State.load, leBytes, h]

/-- A report of the bytes copied. -/
theorem sendCopied_fits (s : State sdk) {f : SendFrame} (hf : f.pHids = .mHids)
    (data : List UInt8) : ∃ l rs, (sendCopied s f data).2 = s.handed l rs ∧ ∀ r ∈ rs, r.Fits := by
  unfold sendCopied
  split_ifs
  · exact ⟨s.link, [], (handed_nil s).symm, by simp⟩
  · refine ⟨_, _, rfl, ?_⟩
    intro r hr
    rw [List.mem_singleton.mp hr]
    refine ⟨hf, rfl, rfl, ?_⟩
    simp [paddedData]

/-- The pass goes on with the next copy, or is over. -/
theorem localsFit_passed {f : SendFrame} (hf : f.Whole) (errCode : ErrCode) :
    LocalsFit (f.passed errCode) := by
  unfold SendFrame.passed
  split_ifs with herr hmore
  · trivial
  · rw [hf.dataLen] at hmore
    exact ⟨⟨hf.pHids, hf.dataLen, hmore⟩, Nat.zero_le 2, rfl⟩
  · trivial

theorem expects_passed {b : BufferList} {f : SendFrame} (h : f.pElement = b.rp ∧ 0 < b.count)
    (errCode : ErrCode) : Expects b (f.passed errCode) := by
  unfold SendFrame.passed
  split_ifs <;> exact h

/-- **A statement of the main loop** keeps what the proofs carry. -/
theorem SafeInv.statement {s : State sdk} {f : DequeueFrame} (h : SafeInv ⟨s, some f⟩) :
    SafeInv (SnesController.statement s f) := by
  have ⟨hplaced, hrp, hcount, hexpects, hlocals, hslots, hreports⟩ := h
  obtain ⟨tx, u, next⟩ := f
  dsimp only [settled, nextStatement] at hplaced hrp hcount hexpects hlocals hslots hreports
  cases next with
  | empty =>
    show SafeInv ⟨s, some ⟨tx, u, if bufferListEmpty s.bufferList = true then .rest else .element⟩⟩
    split_ifs with hempty
    · exact ⟨hplaced, hrp, hcount, trivial, trivial, hslots, hreports⟩
    · have hc : 0 < s.bufferList.count :=
        Nat.pos_of_ne_zero fun hc => hempty (bufferListEmpty_iff.mpr hc)
      exact ⟨hplaced, hrp, hcount, hc, trivial, hslots, hreports⟩
  | element =>
    show SafeInv ⟨s, some ⟨tx, u, if tx = true then .arguments s.bufferList.rp else .clear⟩⟩
    split_ifs
    · exact ⟨hplaced, hrp, hcount, ⟨rfl, hexpects⟩, trivial, hslots, hreports⟩
    · exact ⟨hplaced, hrp, hcount, hexpects, trivial, hslots, hreports⟩
  | arguments p =>
    obtain ⟨rfl, hc⟩ := hexpects
    have hhead : (s.bufferList.buffer s.bufferList.rp).Made := hplaced.head hc
    have hoffset := (hslots s.bufferList.rp).offset_le
    rw [hhead.dataLen] at hoffset
    exact ⟨hplaced, hrp, hcount, ⟨rfl, hc⟩,
      ⟨⟨hhead.pInstance, hhead.dataLen, hoffset⟩, Nat.zero_le 2, rfl⟩, hslots, hreports⟩
  | copy c i data =>
    obtain ⟨hwhole, hi, hdata⟩ := hlocals
    have hl := hwhole.dataLen
    simp only [SnesController.statement]
    split_ifs with hmore
    · have hle : i + 1 ≤ 2 := by omega
      refine ⟨hplaced, hrp, hcount, hexpects, ⟨hwhole, hle, ?_⟩, hslots, hreports⟩
      rw [List.length_append, List.length_drop, length_load s _ hle, hdata]
      omega
    · refine ⟨hplaced, hrp, hcount, hexpects, ⟨hwhole, ?_⟩, hslots, hreports⟩
      omega
  | send c data =>
    obtain ⟨hwhole, hdata⟩ := hlocals
    obtain ⟨l, rs, hs, hrs⟩ := sendCopied_fits s hwhole.pHids data
    simp only [SnesController.statement]
    rw [hs]
    refine ⟨?_, hrp, hcount, ?_, localsFit_passed hwhole _, hslots, ?_⟩
    · rw [settled, nextStatement, settle_passed]
      exact hplaced
    · exact expects_passed hexpects _
    · intro r hr
      rcases List.mem_append.mp hr with hr | hr
      · exact hreports r hr
      · exact hrs r hr
  | sent c =>
    simp only [SnesController.statement]
    split_ifs with hkept
    · refine ⟨hplaced, hrp, hcount, hexpects, ?_, hslots, hreports⟩
      obtain ⟨hp, hc⟩ := hexpects
      have hhead : (s.bufferList.buffer s.bufferList.rp).Made := hplaced.head hc
      show c.offset ≤ 2
      rw [← hhead.dataLen, ← hp]
      exact hkept.2
    · exact ⟨hplaced, hrp, hcount, hexpects.2, trivial, hslots, hreports⟩
  | keep p a =>
    obtain ⟨rfl, hc⟩ := hexpects
    have hhead : (s.bufferList.buffer s.bufferList.rp).Made := hplaced.head hc
    have ha : a ≤ (s.bufferList.buffer s.bufferList.rp).dataLen := by
      rw [hhead.dataLen]
      exact hlocals
    exact ⟨hplaced.keep hc a, hrp, hcount, trivial, trivial, hslots.bufferKeep ha, hreports⟩
  | clear =>
    have hsettled := settled_statement (f := ⟨tx, u, .clear⟩) hcount hexpects
    refine ⟨?_, hrp, hcount, ⟨hplaced.rp_lt, hexpects⟩, trivial, hslots.bufferElementInit _,
      hreports⟩
    rw [hsettled]
    exact hplaced.remove hcount hexpects
  | advance =>
    obtain ⟨hlt, hc⟩ := hexpects
    refine ⟨hplaced, ?_, hcount, hc, trivial, hslots, hreports⟩
    show u8 (s.bufferList.rp + 1) ≤ _
    rw [u8_of_lt (by unfold maxBufferEntries at hlt; omega)]
    exact hlt
  | load => exact ⟨hplaced, hrp, hcount, ⟨hexpects, le_rfl⟩, trivial, hslots, hreports⟩
  | store count =>
    obtain ⟨hpos, hle⟩ := hexpects
    refine ⟨hplaced, hrp, ?_, trivial, trivial, hslots, hreports⟩
    show u8 (count + 255) ≤ _
    rw [u8_pred hpos (hle.trans hcount)]
    omega
  | wrap =>
    refine ⟨hplaced, ?_, hcount, trivial, trivial, hslots, hreports⟩
    show (if s.bufferList.rp = maxBufferEntries then 0 else s.bufferList.rp) ≤ _
    split_ifs
    · exact Nat.zero_le _
    · exact hrp
  | rest =>
    obtain ⟨hb, -, -, hr⟩ := afterDequeue_keysSame tx s
    exact h.same rfl hb hr

/-! ### Events -/

/-- The list settled, an entry enqueued: the count goes up, or stays if it has been read. -/
theorem settle_enqueue {b : BufferList} {next : Statement} (h : Expects b next)
    (hwp : b.wp < maxBufferEntries) (hroom : b.count ≤ maxBufferEntries) (k : ℕ) :
    ∃ b', settle (bufferEnqueue b .mHids .keypadState 2 k).2 next = b' ∧
      b'.buffer = Function.update (settle b next).buffer (settle b next).wp
        ⟨u8 k, u8 2, .keypadState, .mHids⟩ ∧
      b'.rp = (settle b next).rp ∧ b'.wp = RingBuffer.next maxBufferEntries (settle b next).wp ∧
      b'.count ≤ (settle b next).count + 1 := by
  rw [bufferEnqueue_eq hwp hroom]
  cases next with
  | advance =>
    refine ⟨_, rfl, rfl, rfl, rfl, ?_⟩
    show u8 (b.count + 1 + 255) ≤ u8 (b.count + 255) + 1
    rw [u8_pred (Nat.succ_pos _) (Nat.succ_le_succ hroom), u8_pred h.2 (Nat.le_succ_of_le hroom)]
    omega
  | load =>
    refine ⟨_, rfl, rfl, rfl, rfl, ?_⟩
    show u8 (b.count + 1 + 255) ≤ u8 (b.count + 255) + 1
    rw [u8_pred (Nat.succ_pos _) (Nat.succ_le_succ hroom), u8_pred h (Nat.le_succ_of_le hroom)]
    omega
  | store count => exact ⟨_, rfl, rfl, rfl, rfl, Nat.le_succ _⟩
  | _ => exact ⟨_, rfl, rfl, rfl, rfl, Nat.le_refl _⟩

/-- What the main loop expects is still there when the list has got longer. -/
theorem Expects.mono {b b' : BufferList} {next : Statement} (h : Expects b next)
    (hrp : b'.rp = b.rp) (hle : b.count ≤ b'.count) : Expects b' next := by
  cases next with
  | empty | wrap | rest => trivial
  | element | clear | load => exact Nat.lt_of_lt_of_le h hle
  | advance => exact ⟨hrp ▸ h.1, Nat.lt_of_lt_of_le h.2 hle⟩
  | store count => exact ⟨h.1, h.2.trans hle⟩
  | _ => exact ⟨h.1.trans hrp.symm, Nat.lt_of_lt_of_le h.2 hle⟩

/-- **What an interrupt hands over.** -/
theorem interrupt_fits (s : State sdk) {i : Input} (hi : i.evt.interrupts = true) :
    ∃ rs, (step s i).reports = s.reports ++ rs ∧ ∀ r ∈ rs, r.Fits := by
  by_cases hrx : ∃ b₀ b₁, i.evt = .uart (.rxDone b₀ b₁)
  · obtain ⟨b₀, b₁, he⟩ := hrx
    obtain ⟨e, u⟩ := i
    obtain rfl : e = .uart (.rxDone b₀ b₁) := he
    obtain ⟨rs, hr, hrs⟩ := rxDone_reports s b₀ b₁ u
    refine ⟨rs, hr, ?_⟩
    intro r hmem
    rw [hrs r hmem]
    exact stateReport_fits _ _
  · obtain ⟨-, -, hr⟩ := whole_keysSame s (fun b₀ b₁ he => hrx ⟨b₀, b₁, he⟩)
      (fun n he => by rw [he] at hi; cases hi) (fun he => by rw [he] at hi; cases hi)
    exact ⟨[], by rw [hr, List.append_nil], by simp⟩

/-- **An interrupt** keeps what the proofs carry. -/
theorem SafeInv.interrupt {m : Preempted sdk} (h : SafeInv m) {i : Input}
    (hi : i.evt.interrupts = true) : SafeInv ⟨step m.state i, m.frame⟩ := by
  obtain ⟨hplaced, hrp, hcount, hexpects, hlocals, hslots, hreports⟩ := h
  obtain ⟨rs, hr, hrs⟩ := interrupt_fits m.state hi
  have hreports' : ∀ r ∈ (step m.state i).reports, r.Fits := by
    intro r hmem
    rw [hr] at hmem
    rcases List.mem_append.mp hmem with hmem | hmem
    · exact hreports r hmem
    · exact hrs r hmem
  have hslots' := step_slots hslots i
  obtain ⟨s, frame⟩ := m
  generalize hnext : nextStatement (⟨s, frame⟩ : Preempted sdk) = next at hexpects hlocals
  have hnext' : nextStatement (⟨step s i, frame⟩ : Preempted sdk) = next := hnext
  unfold settled at hplaced
  rw [hnext] at hplaced
  dsimp only at hplaced hrp hcount hexpects hslots' hreports'
  have hsafe : ∀ b, (step s i).bufferList = b → Placed (settle b next) → b.rp = s.bufferList.rp →
      s.bufferList.count ≤ b.count → b.count ≤ maxBufferEntries + 1 →
      SafeInv (⟨step s i, frame⟩ : Preempted sdk) := by
    rintro b rfl hplaced' hrp' hmore hle
    refine ⟨?_, hrp'.le.trans hrp, hle, ?_, ?_, hslots', hreports'⟩
    · rw [settled, hnext']
      exact hplaced'
    · rw [hnext']
      exact hexpects.mono hrp' hmore
    · rw [hnext']
      exact hlocals
  rcases interrupt_bufferList s hi with hb | ⟨k, hb⟩
  · exact hsafe _ hb hplaced rfl le_rfl hcount
  · rcases Nat.eq_or_lt_of_le hcount with hfull | hlt
    · rw [bufferEnqueue_full hfull] at hb
      exact hsafe _ hb hplaced rfl le_rfl hcount
    · have hroom : s.bufferList.count ≤ maxBufferEntries := Nat.le_of_lt_succ hlt
      have hwp : s.bufferList.wp < maxBufferEntries := by
        have hlt := hplaced.wp_lt
        cases next <;> exact hlt
      obtain ⟨b', hb', hbuffer, hrp', hwp', hcount'⟩ := settle_enqueue hexpects hwp hroom k
      refine hsafe _ hb ?_ ?_ ?_ ?_
      · rw [hb']
        exact hplaced.push ⟨rfl, .inl rfl, rfl⟩ hbuffer hrp' hwp' hcount'
      · rw [bufferEnqueue_eq hwp hroom]
      · rw [bufferEnqueue_eq hwp hroom]
        exact Nat.le_succ _
      · rw [bufferEnqueue_eq hwp hroom]
        exact Nat.succ_le_succ hroom

/-- **One slice.** -/
theorem SafeInv.slice {m : Preempted sdk} (h : SafeInv m) (sl : Slice Input) :
    SafeInv ((firmware sdk).slice m sl) := by
  cases sl with
  | thread =>
    obtain ⟨s, frame⟩ := m
    cases frame with
    | none => exact h
    | some f => exact h.statement
  | event i =>
    have htaken := slice_taken m i
    generalize (firmware sdk).slice m (.event i) = m' at htaken ⊢
    obtain ⟨s, frame⟩ := m
    cases htaken with
    | busy => exact h
    | interrupt hi => exact h.interrupt hi
    | begun txFlag hidle =>
      obtain rfl : frame = none := hidle
      exact ⟨h.placed, h.rp_le, h.count_le, trivial, trivial, h.slots, h.reports⟩
    | whole hidle hu ht hd =>
      obtain rfl : frame = none := hidle
      obtain ⟨hb, -, hr⟩ := whole_keysSame s hu ht hd
      exact h.same rfl hb hr

theorem safeInv_boot (link : sdk.Link) (pm : sdk.Pm) (uart : sdk.Uart) :
    SafeInv (preemptedBoot link pm uart) := by
  have hreports : (boot link pm uart).reports = [] := rfl
  have hpos : 0 < maxBufferEntries := Nat.succ_pos 4
  refine ⟨⟨hpos, hpos, .inr ⟨Nat.le_refl 0, ?_⟩⟩, Nat.zero_le _, Nat.zero_le _, trivial, trivial,
    slots_boot link pm uart, ?_⟩
  · intro j hj
    exact absurd hj (Nat.not_lt_zero j)
  · show ∀ r ∈ (boot link pm uart).reports, _
    rw [hreports]
    simp

theorem safeInv_run (link : sdk.Link) (pm : sdk.Pm) (uart : sdk.Uart)
    (slices : List (Slice Input)) :
    SafeInv (run (firmware sdk).slice (preemptedBoot link pm uart) slices) :=
  Along.run_inv (I := SafeInv) (fun _ sl h _ => h.slice sl) (along_true _ slices)
    (safeInv_boot link pm uart)

/-- **Nothing goes out of bounds**: in every run, any events in any order, cut into slices anyhow,
every statement of the main loop accesses only slots of the array and bytes of the key state and of
the report, the count never exceeds the capacity by more than one, and is not lowered when it is
zero, no slot holds a pattern longer than two bytes or an offset beyond its length, and every report
is handed over as the HID service takes it. -/
theorem preempted_inBounds (link : sdk.Link) (pm : sdk.Pm) (uart : sdk.Uart)
    (slices : List (Slice Input)) :
    PreemptedInBounds (run (firmware sdk).slice (preemptedBoot link pm uart) slices) :=
  (safeInv_run link pm uart slices).inBounds

end SnesController
