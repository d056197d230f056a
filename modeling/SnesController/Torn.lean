import SnesController.LastReport

/-!
# What a report can show, under interrupts

A frame that arrives while `keypad_state` is copied may leave half of the copy older than the other.
`preempted_bytes` is what is left of a report's meaning then, in every run whatsoever: each of its
two bytes is that byte of a state the keypad has had, though perhaps not of the same one, unless the
report is transmitted from an entry whose pointer was null when its fields were read. The example is
a report with two buttons that were never down together.
-/

namespace SnesController

open EventRun Interleaving

variable {sdk : Sdk}

/-- The states the keypad has had: that of the reset, and those of the frames. -/
def statesSeen (es : List Input) : List UInt16 := 0 :: frames es

/-- **What a report's data may be**: the low byte of one of the states, the high byte of one, and
two zeros. -/
def Shows (vs : List UInt16) (data : List UInt8) : Prop :=
  ∃ v ∈ vs, ∃ w ∈ vs, data = paddedData [v.toUInt8, (w >>> 8).toUInt8]

/-- The reports a slice hands over. -/
def handedOver (m : Preempted sdk) (sl : Slice Input) : List Report :=
  ((firmware sdk).slice m sl).state.reports.drop m.state.reports.length

/-- The entry a slice reads the arguments of `send_key_scan_press_release` from. -/
def entryRead (m : Preempted sdk) : Slice Input → Option BufferEntry
  | .thread =>
    match nextStatement m with
    | .arguments pElement => some (m.state.bufferList.buffer pElement)
    | _ => none
  | .event _ => none

/-- The entry last read. -/
def recordRead (read : Option BufferEntry) (m : Preempted sdk) (sl : Slice Input)
    (_ : Preempted sdk) : Option BufferEntry := (entryRead m sl).or read

/-- **The entry being transmitted**, or the last one that was: as it was when the arguments were
read from its slot. -/
def lastRead (link : sdk.Link) (pm : sdk.Pm) (uart : sdk.Uart) (slices : List (Slice Input)) :
    Option BufferEntry :=
  (run (observed (firmware sdk).slice recordRead) (preemptedBoot link pm uart, none) slices).2

/-- The first `i` bytes of the pattern, copied at different times; of the null pointer's only if
that was the pointer of the entry read. -/
def CopiedBytes (sdk : Sdk) (vs : List UInt16) (read : Option BufferEntry) (f : SendFrame) (i : ℕ)
    (data : List UInt8) : Prop :=
  f.pKeyPattern = .keypadState ∧ f.dataLen = 2 ∧
      (∃ v ∈ vs, ∃ w ∈ vs, data = [v.toUInt8, (w >>> 8).toUInt8].take i) ∨
    f.pKeyPattern = .null ∧ (∃ e, read = some e ∧ e.pData = .null ∧ e.dataLen = f.dataLen) ∧
      data = (List.range i).map sdk.memory

/-- What the locals hold. -/
def CopiedSoFar (sdk : Sdk) (vs : List UInt16) (read : Option BufferEntry) : Statement → Prop
  | .copy f i data => i ≤ f.dataLen ∧ CopiedBytes sdk vs read f i data
  | .send f data => CopiedBytes sdk vs read f f.dataLen data
  | _ => True

/-- What the proofs carry, with `vs` the states the keypad has had. -/
structure TornInv (vs : List UInt16) (c : Preempted sdk × Option BufferEntry) : Prop where
  slots : SlotsPoint c.1.state.bufferList
  state : c.1.state.keypadState ∈ vs
  copies : CopiedSoFar sdk vs c.2 (nextStatement c.1)

variable {vs ws : List UInt16} {read : Option BufferEntry}

/-! ### The keypad has more states as the run goes on -/

theorem CopiedBytes.mono (h : vs ⊆ ws) {f : SendFrame} {i : ℕ} {data : List UInt8}
    (hc : CopiedBytes sdk vs read f i data) : CopiedBytes sdk ws read f i data := by
  obtain ⟨hp, hl, v, hv, w, hw, hdata⟩ | hnull := hc
  · exact .inl ⟨hp, hl, v, h hv, w, h hw, hdata⟩
  · exact .inr hnull

theorem CopiedSoFar.mono (h : vs ⊆ ws) {next : Statement} (hc : CopiedSoFar sdk vs read next) :
    CopiedSoFar sdk ws read next := by
  cases next with
  | copy f i data => exact ⟨hc.1, hc.2.mono h⟩
  | send f data => exact CopiedBytes.mono h hc
  | _ => trivial

/-! ### The main loop's statements -/

/-- One byte more, of the state as it is by now. -/
theorem CopiedBytes.next {s : State sdk} {f : SendFrame} {i : ℕ} {data : List UInt8}
    (hs : s.keypadState ∈ vs) (h : CopiedBytes sdk vs read f i data) (hi : i < f.dataLen) :
    CopiedBytes sdk vs read f (i + 1) (data ++ (s.load f.pKeyPattern (i + 1)).drop i) := by
  obtain ⟨hp, hl, v, hv, w, hw, rfl⟩ | ⟨hp, hl, rfl⟩ := h
  · refine .inl ⟨hp, hl, ?_⟩
    rw [hp]
    rw [hl] at hi
    obtain rfl | rfl : i = 0 ∨ i = 1 := by omega
    · exact ⟨s.keypadState, hs, w, hw, rfl⟩
    · exact ⟨v, hv, s.keypadState, hs, rfl⟩
  · refine .inr ⟨hp, hl, ?_⟩
    rw [hp]
    exact (load_succ s .null i).symm

/-- The whole pattern, padded. -/
theorem CopiedBytes.shows {f : SendFrame} {data : List UInt8}
    (h : CopiedBytes sdk vs read f f.dataLen data) :
    Shows vs (paddedData data) ∨ ∃ e, read = some e ∧ e.pData = .null ∧
      paddedData data = paddedData ((List.range e.dataLen).map sdk.memory) := by
  obtain ⟨-, hl, v, hv, w, hw, rfl⟩ | ⟨-, ⟨e, hread, hnull, hl⟩, rfl⟩ := h
  · rw [hl]
    exact .inl ⟨v, hv, w, hw, rfl⟩
  · exact .inr ⟨e, hread, hnull, by rw [hl]⟩

/-- Nothing is copied at the start. -/
theorem CopiedBytes.start {e : BufferEntry} (he : e.pData = .null ∨ e.IsKey) {v : UInt16}
    (hv : v ∈ vs) {f : SendFrame} (hp : f.pKeyPattern = e.pData) (hl : f.dataLen = e.dataLen) :
    CopiedBytes sdk vs (some e) f 0 [] := by
  rcases he with hnull | ⟨hstate, hlen⟩
  · exact .inr ⟨hp.trans hnull, ⟨e, rfl, hnull, hl.symm⟩, rfl⟩
  · exact .inl ⟨hp.trans hstate, hl.trans hlen, v, hv, v, hv, rfl⟩

/-- The pass goes on with the next copy, or is over. -/
theorem CopiedBytes.passed {f : SendFrame} {data : List UInt8}
    (h : CopiedBytes sdk vs read f f.dataLen data) (errCode : ErrCode) :
    CopiedSoFar sdk vs read (f.passed errCode) := by
  unfold SendFrame.passed
  split_ifs
  · trivial
  · refine ⟨Nat.zero_le _, ?_⟩
    obtain ⟨hp, hl, v, hv, w, hw, -⟩ | ⟨hp, hl, -⟩ := h
    · exact .inl ⟨hp, hl, v, hv, w, hw, rfl⟩
    · exact .inr ⟨hp, hl, rfl⟩
  · trivial

/-- A statement writes no other entries. -/
theorem statement_slots {s : State sdk} (h : SlotsPoint s.bufferList) (f : DequeueFrame) :
    SlotsPoint (statement s f).state.bufferList := by
  obtain ⟨tx, u, next⟩ := f
  cases next with
  | copy | sent =>
    simp only [statement]
    split_ifs <;> exact h
  | send c data =>
    obtain ⟨l, rs, hs⟩ := sendCopied_handed s c data
    simp only [statement]
    rw [hs]
    exact h
  | keep p a => exact h.update (h p)
  | clear => exact h.bufferElementInit s.bufferList.rp
  | rest =>
    show SlotsPoint (afterDequeue tx s).bufferList
    rw [(afterDequeue_keysSame tx s).bufferList]
    exact h
  | _ => exact h

/-- Only one statement hands a report over, of the bytes copied. -/
theorem statement_reports (s : State sdk) (f : DequeueFrame) :
    ∃ rs, (statement s f).state.reports = s.reports ++ rs ∧
      ∀ r ∈ rs, ∃ c data, f.next = .send c data ∧ r.data = paddedData data := by
  have hnone : ∀ {s' : State sdk}, s'.reports = s.reports → ∃ rs, s'.reports = s.reports ++ rs ∧
      ∀ r ∈ rs, ∃ c data, f.next = .send c data ∧ r.data = paddedData data :=
    fun h => ⟨[], by rw [h, List.append_nil], by simp⟩
  obtain ⟨tx, u, next⟩ := f
  cases next with
  | copy | sent =>
    apply hnone
    simp only [statement]
    split_ifs <;> rfl
  | send c data =>
    simp only [statement, sendCopied]
    split_ifs
    · exact hnone rfl
    · refine ⟨_, rfl, ?_⟩
      intro r hr
      rw [List.mem_singleton.mp hr]
      exact ⟨c, data, rfl, rfl⟩
  | rest => exact hnone (afterDequeue_keysSame tx s).reports
  | _ => exact hnone rfl

/-- **A statement of the main loop** keeps what the proofs carry. -/
theorem TornInv.statement {s : State sdk} {f : DequeueFrame}
    (h : TornInv vs (⟨s, some f⟩, read)) :
    TornInv vs (observed (firmware sdk).slice recordRead (⟨s, some f⟩, read) .thread) := by
  obtain ⟨hslots, hstate, hcopies⟩ := h
  refine ⟨statement_slots hslots f, (statement_keypadState s f).symm ▸ hstate, ?_⟩
  obtain ⟨tx, u, next⟩ := f
  cases next with
  | empty =>
    show CopiedSoFar sdk vs read (if bufferListEmpty s.bufferList = true then .rest else .element)
    split_ifs <;> trivial
  | element =>
    show CopiedSoFar sdk vs read (if tx = true then .arguments s.bufferList.rp else .clear)
    split_ifs <;> trivial
  | arguments p => exact ⟨Nat.zero_le _, .start (hslots p) hstate rfl rfl⟩
  | copy f i data =>
    obtain ⟨hi, hcopied⟩ := hcopies
    show CopiedSoFar sdk vs read
      (nextStatement (SnesController.statement s ⟨tx, u, .copy f i data⟩))
    simp only [SnesController.statement, nextStatement]
    split_ifs with hmore
    · exact ⟨hmore, hcopied.next hstate hmore⟩
    · obtain rfl : i = f.dataLen := by omega
      exact hcopied
  | send f data => exact CopiedBytes.passed hcopies _
  | sent f =>
    show CopiedSoFar sdk vs read (nextStatement (SnesController.statement s ⟨tx, u, .sent f⟩))
    simp only [SnesController.statement, nextStatement]
    split_ifs <;> trivial
  | _ => trivial

/-! ### Events -/

/-- An interrupt writes no other entries. -/
theorem interrupt_slots {s : State sdk} {i : Input} (h : SlotsPoint s.bufferList)
    (hi : i.evt.interrupts = true) : SlotsPoint (step s i).bufferList := by
  rcases interrupt_bufferList s hi with hb | ⟨k, hb⟩
  · rw [hb]
    exact h
  · rw [hb]
    exact h.enqueue k

/-- **The reports an event hands over** at once show the state it leaves. -/
theorem event_reports (m : Preempted sdk) (i : Input) :
    ∃ rs, ((firmware sdk).slice m (.event i)).state.reports = m.state.reports ++ rs ∧
      ∀ r ∈ rs, r.data = statePayload ((firmware sdk).slice m (.event i)).state.keypadState := by
  have htaken := slice_taken m i
  generalize (firmware sdk).slice m (.event i) = m' at htaken ⊢
  have hnone : m'.state.reports = m.state.reports → ∃ rs, m'.state.reports = m.state.reports ++ rs ∧
      ∀ r ∈ rs, r.data = statePayload m'.state.keypadState :=
    fun h => ⟨[], by rw [h, List.append_nil], by simp⟩
  cases htaken with
  | busy | begun => exact hnone rfl
  | whole hidle hu ht hd =>
    obtain ⟨-, -, hr⟩ := whole_keysSame m.state hu ht hd
    exact hnone hr
  | interrupt hi =>
    have heff := step_keyEffect m.state i
    dsimp only at hnone ⊢
    generalize step m.state i = s' at heff hnone ⊢
    generalize i.evt = e at heff hi
    cases heff with
    | other _ hs | unchanged _ hs => exact hnone hs.reports
    | changed rs _ hk hr hdata => exact ⟨rs, hr, by rw [hk]; exact hdata⟩
    | mode | idle | dequeued | flushed | dropped => cases hi

/-- **An event** may give the keypad one more state. -/
theorem TornInv.event {m : Preempted sdk} (h : TornInv vs (m, read)) (i : Input) (hsub : vs ⊆ ws)
    (hstate : ((firmware sdk).slice m (.event i)).state.keypadState ∈ ws) :
    TornInv ws (observed (firmware sdk).slice recordRead (m, read) (.event i)) := by
  have htaken := slice_taken m i
  refine ⟨?_, hstate, ?_⟩
  · show SlotsPoint ((firmware sdk).slice m (.event i)).state.bufferList
    generalize (firmware sdk).slice m (.event i) = m' at htaken ⊢
    cases htaken with
    | busy | begun => exact h.slots
    | whole hidle hu ht hd =>
      obtain ⟨hb, -, -⟩ := whole_keysSame m.state hu ht hd
      exact hb ▸ h.slots
    | interrupt hi => exact interrupt_slots h.slots hi
  · show CopiedSoFar sdk ws read (nextStatement ((firmware sdk).slice m (.event i)))
    generalize (firmware sdk).slice m (.event i) = m' at htaken ⊢
    cases htaken with
    | busy | interrupt => exact h.copies.mono hsub
    | begun | whole => trivial

/-! ### Runs -/

theorem statesSeen_subset (es : List Input) (i : Input) :
    statesSeen es ⊆ statesSeen (es ++ [i]) := by
  unfold statesSeen frames
  rw [List.filterMap_append]
  exact List.cons_subset_cons 0 (List.subset_append_left _ _)

theorem currentState_mem (es : List Input) : currentState es ∈ statesSeen es := by
  unfold currentState statesSeen
  cases h : (frames es).getLast? with
  | none => exact List.mem_cons_self
  | some v => exact List.mem_cons_of_mem 0 (List.mem_of_getLast? h)

theorem tornInv_boot (link : sdk.Link) (pm : sdk.Pm) (uart : sdk.Uart) :
    TornInv (statesSeen []) (preemptedBoot link pm uart, none) := by
  have hstate : (boot link pm uart).keypadState = 0 := rfl
  refine ⟨slotsPoint_boot link pm uart, ?_, trivial⟩
  show (boot link pm uart).keypadState ∈ _
  rw [hstate]
  exact List.mem_cons_self

/-- The invariant of a whole run. -/
theorem tornInv_run (link : sdk.Link) (pm : sdk.Pm) (uart : sdk.Uart)
    (slices : List (Slice Input)) :
    TornInv (statesSeen (events slices))
      (run (firmware sdk).slice (preemptedBoot link pm uart) slices,
        lastRead link pm uart slices) := by
  have hfst : ∀ slices, (run (observed (firmware sdk).slice recordRead)
      (preemptedBoot link pm uart, none) slices).1 =
        run (firmware sdk).slice (preemptedBoot link pm uart) slices :=
    fun slices => run_observed_fst recordRead _ slices
  rw [← hfst]
  show TornInv _ (run (observed (firmware sdk).slice recordRead)
    (preemptedBoot link pm uart, none) slices)
  induction slices using List.reverseRecOn with
  | nil => exact tornInv_boot link pm uart
  | append_singleton slices sl ih =>
    have hstate := preempted_keypadState link pm uart (slices ++ [sl])
    rw [run_concat, ← hfst] at hstate
    rw [run_concat]
    generalize run (observed (firmware sdk).slice recordRead)
      (preemptedBoot link pm uart, none) slices = c at ih hstate ⊢
    obtain ⟨m, read⟩ := c
    cases sl with
    | thread =>
      rw [events_concat_thread]
      obtain ⟨s, frame⟩ := m
      cases frame with
      | none => exact ih
      | some f => exact ih.statement
    | event i =>
      rw [events_concat_event] at hstate ⊢
      refine ih.event i (statesSeen_subset (events slices) i) ?_
      rw [hstate]
      exact currentState_mem _

/-- **No byte is invented**: in every run, any events in any order, cut into slices anyhow, each
report a slice hands to the link shows the low byte of a state the keypad has had and the high byte
of one, padded with zeros, or the main loop transmits it from an entry whose pointer was null when
it read the entry, and it shows what lies there. -/
theorem preempted_bytes (link : sdk.Link) (pm : sdk.Pm) (uart : sdk.Uart)
    (slices : List (Slice Input)) (sl : Slice Input) :
    ∀ r ∈ handedOver (run (firmware sdk).slice (preemptedBoot link pm uart) slices) sl,
      Shows (statesSeen (events (slices ++ [sl]))) r.data ∨
        sl = .thread ∧ ∃ e, lastRead link pm uart slices = some e ∧ e.pData = .null ∧
          r.data = paddedData ((List.range e.dataLen).map sdk.memory) := by
  have hinv := tornInv_run link pm uart slices
  have hinv' := tornInv_run link pm uart (slices ++ [sl])
  have hstate := hinv'.state
  dsimp only at hstate
  rw [run_concat] at hstate
  generalize run (firmware sdk).slice (preemptedBoot link pm uart) slices = m at hinv hstate ⊢
  intro r hr
  unfold handedOver at hr
  cases sl with
  | event i =>
    obtain ⟨rs, hrs, hdata⟩ := event_reports m i
    rw [hrs, List.drop_left] at hr
    exact .inl ⟨_, hstate, _, hstate, hdata r hr⟩
  | thread =>
    rw [events_concat_thread]
    obtain ⟨s, frame⟩ := m
    cases frame with
    | none => simp [Program.slice] at hr
    | some f =>
      obtain ⟨rs, hrs, hsent⟩ := statement_reports s f
      have hslice : (firmware sdk).slice ⟨s, some f⟩ .thread = statement s f := rfl
      rw [hslice, hrs, List.drop_left] at hr
      obtain ⟨c, data, hnext, hdata⟩ := hsent r hr
      have hcopies : CopiedSoFar sdk _ (lastRead link pm uart slices) f.next := hinv.copies
      rw [hnext] at hcopies
      rw [hdata]
      exact (CopiedBytes.shows hcopies).imp id fun h => ⟨rfl, h⟩

/-- The first copy of a change, taken outright: the entry read is none. -/
theorem preempted_bytes_firstCopy :
    Shows (statesSeen (events ([] ++ [.event (frame 0 1)]))) [0x01, 0x00, 0x00, 0x00] :=
  (preempted_bytes (deviceLink 1) (devicePm 1) (deviceUart 1) [] (.event (frame 0 1))
    ⟨.mHids, 0, 4, [0x01, 0x00, 0x00, 0x00], .success⟩ (by decide)).resolve_right
      fun h => absurd h.1 (by decide)

-- The keypad shows button 1, then button 9 alone; a report in between shows both.
example :
    (run (firmware (device 5)).slice (preemptedBoot (deviceLink 5) (devicePm 5) (deviceUart 5))
        ([.event (frame 0 2), .event (frame 0 1), .event (txComplete 5)] ++
          List.replicate 4 .thread ++
            [.event (frame 1 0), .thread, .thread, .thread])).state.reports.getLast?.map
          (·.data) = some (statePayload 0x0101) := by
  decide

end SnesController
