import SnesController.KeyPath
import SnesController.Library.Interleaving

/-!
# Preemption

The SoftDevice's events are taken from the scheduler's queue in the main loop, and the handlers of
the UART and of the ADC are interrupts. So the keypad may send a frame while the main loop is in the
middle of `buffer_dequeue`, and `keys_send` may run between two of its statements.

Here `buffer_dequeue` and the `send_key_scan_press_release` it calls are executed statement by
statement: the pattern is copied byte by byte, and `count--` reads the count before it writes it.
The rest of what runs in the main loop shares nothing with `uart_event_handler` but the link, and is
one step.

`preempted_sequential` is what the other modules rest on: as long as the events come between
the handlers, the handlers are as if run to completion. That the main loop comes to the end of its
handler also when it is interrupted is `preempted_comesThrough`.
-/

namespace SnesController

open EventRun Interleaving

variable {sdk : Sdk}

/-- The locals of `send_key_scan_press_release`, and the slot `p_element` points to. -/
structure SendFrame where
  pElement : ℕ
  pHids : HidsPtr
  pKeyPattern : PatternPtr
  dataLen : ℕ
  offset : ℕ
  errCode : ErrCode

/-- **The statement of `buffer_dequeue` that is next**, with the locals that are still read. -/
inductive Statement where
  /-- `if (BUFFER_LIST_EMPTY())`. -/
  | empty
  /-- `p_element = &buffer_list.buffer[(buffer_list.rp)]`, and the test of `tx_flag`. -/
  | element
  /-- The arguments of `send_key_scan_press_release` are read from the slot. -/
  | arguments (pElement : ℕ)
  /-- `memcpy` copies byte `i`, if it is not at its end. -/
  | copy (f : SendFrame) (i : ℕ) (data : List UInt8)
  /-- `ble_hids_inp_rep_send`, and what is left of the pass. -/
  | send (f : SendFrame) (data : List UInt8)
  /-- The test whether the transmission is to be completed later. -/
  | sent (f : SendFrame)
  /-- `p_element->data_offset = actual_len`. -/
  | keep (pElement actualLen : ℕ)
  /-- `BUFFER_ELEMENT_INIT(buffer_list.rp)`. -/
  | clear
  /-- `buffer_list.rp++`. -/
  | advance
  /-- `buffer_list.count--`: the count is read. -/
  | load
  /-- `buffer_list.count--`: the count is written. -/
  | store (count : ℕ)
  /-- `if (buffer_list.rp == MAX_BUFFER_ENTRIES)`. -/
  | wrap
  /-- The rest of `on_ble_evt`. -/
  | rest

/-- The stack frame of `buffer_dequeue`. -/
structure DequeueFrame where
  txFlag : Bool
  uninit : ErrCode
  next : Statement

/-- The firmware, its main loop perhaps in `buffer_dequeue`. -/
abbrev Preempted (sdk : Sdk) := Machine (State sdk) DequeueFrame

/-- A report of the bytes copied. -/
def paddedData (data : List UInt8) : List UInt8 :=
  (data ++ List.replicate joystickInputReportKeysMaxLen 0).take joystickInputReportKeysMaxLen

/-- The pass hands the bytes copied to the link, unless in boot mode. -/
def sendCopied (s : State sdk) (f : SendFrame) (data : List UInt8) : ErrCode × State sdk :=
  if s.mInBootMode then (f.errCode, s)
  else bleHidsInpRepSend s f.pHids joystickInputReportKeysIndex joystickInputReportKeysMaxLen
    (paddedData data)

/-- Where the pass that got the answer `errCode` goes: round again, or out of the loop. -/
def SendFrame.passed (f : SendFrame) (errCode : ErrCode) : Statement :=
  if errCode ≠ .success then .sent { f with errCode := errCode }
  else if u16 (f.offset + 1) ≤ f.dataLen then
    .copy { f with errCode := errCode, offset := u16 (f.offset + 1) } 0 []
  else .sent { f with errCode := errCode, offset := u16 (f.offset + 1) }

/-- The rest of `on_ble_evt`: nothing after a completed transmission. -/
def afterDequeue (txFlag : Bool) (s : State sdk) : State sdk :=
  if txFlag then s else whitelistUpdate { s with mConnHandle := bleConnHandleInvalid }

/-- **The main loop executes a statement.** -/
def statement (s : State sdk) (f : DequeueFrame) : Preempted sdk :=
  let b := s.bufferList
  let goto (s : State sdk) (next : Statement) : Preempted sdk := ⟨s, some { f with next := next }⟩
  match f.next with
  | .empty => goto s (if bufferListEmpty b then .rest else .element)
  | .element => goto s (if f.txFlag then .arguments b.rp else .clear)
  | .arguments pElement =>
    let e := b.buffer pElement
    goto s (.copy ⟨pElement, e.pInstance, e.pData, e.dataLen, e.dataOffset, f.uninit⟩ 0 [])
  | .copy c i data =>
    if i < c.dataLen then goto s (.copy c (i + 1) (data ++ (s.load c.pKeyPattern (i + 1)).drop i))
    else goto s (.send c data)
  | .send c data => goto (sendCopied s c data).2 (c.passed (sendCopied s c data).1)
  | .sent c =>
    if c.errCode = .noTxPackets ∧ c.offset ≤ (b.buffer c.pElement).dataLen then
      goto s (.keep c.pElement c.offset)
    else goto s .clear
  | .keep pElement actualLen =>
    let e := { b.buffer pElement with dataOffset := u8 actualLen }
    goto { s with bufferList := { b with buffer := Function.update b.buffer pElement e } } .rest
  | .clear => goto { s with bufferList := bufferElementInit b b.rp } .advance
  | .advance => goto { s with bufferList := { b with rp := u8 (b.rp + 1) } } .load
  | .load => goto s (.store b.count)
  | .store count => goto { s with bufferList := { b with count := u8 (count + 255) } } .wrap
  | .wrap =>
    let rp := if b.rp = maxBufferEntries then 0 else b.rp
    goto { s with bufferList := { b with rp := rp } } .rest
  | .rest => ⟨afterDequeue f.txFlag s, none⟩

/-- The events whose handlers are interrupts. -/
def Event.interrupts : Event → Bool
  | .uart _ | .adc _ => true
  | _ => false

/-- The main loop takes up an event. -/
def dispatch (s : State sdk) (i : Input) : Preempted sdk :=
  match i.evt with
  | .ble (.txComplete _) => ⟨deliver s i.evt, some ⟨true, i.uninit, .empty⟩⟩
  | .ble .disconnected => ⟨deliver s i.evt, some ⟨false, i.uninit, .empty⟩⟩
  | _ => ⟨step s i, none⟩

/-- **The firmware with its interrupts.** -/
def firmware (sdk : Sdk) : Program (State sdk) Input DequeueFrame where
  interrupts i := i.evt.interrupts
  handler := step
  dispatch := dispatch
  statement := statement

/-- The firmware at the start of its main loop. -/
def preemptedBoot (link : sdk.Link) (pm : sdk.Pm) (uart : sdk.Uart) : Preempted sdk :=
  ⟨boot link pm uart, none⟩

/-! ### Left alone -/

section Alone

variable {s s' : State sdk} {f : DequeueFrame}

/-- A statement in front. -/
theorem finishes_statement (h : (firmware sdk).Finishes (statement s f) s') :
    (firmware sdk).Finishes ⟨s, some f⟩ s' := Program.Finishes.statement h

theorem load_zero (s : State sdk) (p : PatternPtr) : s.load p 0 = [] := by
  cases p <;> rfl

/-- One byte more. -/
theorem load_succ (s : State sdk) (p : PatternPtr) (i : ℕ) :
    s.load p (i + 1) = s.load p i ++ (s.load p (i + 1)).drop i := by
  have htake : s.load p i = (s.load p (i + 1)).take i := by
    cases p with
    | keypadState =>
      show (leBytes s.keypadState).take i = ((leBytes s.keypadState).take (i + 1)).take i
      rw [List.take_take, Nat.min_eq_left (Nat.le_succ i)]
    | null | obj a =>
      simp only [State.load]
      rw [← List.map_take, List.take_range, Nat.min_eq_left (Nat.le_succ i)]
  rw [htake, List.take_append_drop]

/-- The whole pattern is copied. -/
theorem finishes_copy {c : SendFrame} {i : ℕ} (hi : i ≤ c.dataLen)
    (h : (firmware sdk).Finishes
      ⟨s, some { f with next := .send c (s.load c.pKeyPattern c.dataLen) }⟩ s') :
    (firmware sdk).Finishes
      ⟨s, some { f with next := .copy c i (s.load c.pKeyPattern i) }⟩ s' := by
  obtain ⟨d, hd⟩ := Nat.exists_eq_add_of_le hi
  induction d generalizing i with
  | zero =>
    obtain rfl : i = c.dataLen := by omega
    apply finishes_statement
    simp only [statement]
    rw [if_neg (Nat.lt_irrefl _)]
    exact h
  | succ d ih =>
    apply finishes_statement
    simp only [statement]
    rw [if_pos (by omega), ← load_succ]
    exact ih (by omega) (by omega)

/-- The loop of `send_key_scan_press_release` goes round as often as it does in one piece. -/
theorem finishes_send (n : ℕ) {s : State sdk} {c : SendFrame} (hoff : c.offset ≤ c.dataLen)
    (hlen : c.dataLen + 1 < 65536) (hn : c.dataLen - c.offset < n) {t : Transmission sdk}
    (ht : sendLoop n s c.errCode c.pHids c.pKeyPattern c.dataLen c.offset = t)
    (h : (firmware sdk).Finishes
      ⟨t.state, some { f with
        next := .sent { c with errCode := t.errCode, offset := t.actualLen } }⟩ s') :
    (firmware sdk).Finishes
      ⟨s, some { f with next := .send c (s.load c.pKeyPattern c.dataLen) }⟩ s' := by
  induction n generalizing s c with
  | zero => exact absurd hn (Nat.not_lt_zero _)
  | succ n ih =>
    have hu : u16 (c.offset + 1) = c.offset + 1 := u16_of_lt (by omega)
    have hpass : sendCopied s c (s.load c.pKeyPattern c.dataLen) =
        sendPass s c.errCode c.pHids c.pKeyPattern c.dataLen := rfl
    apply Program.Finishes.statement
    simp only [firmware, statement, SendFrame.passed]
    rw [hpass, hu]
    rw [sendLoop, hu] at ht
    generalize sendPass s c.errCode c.pHids c.pKeyPattern c.dataLen = sent at ht ⊢
    obtain ⟨err, s₁⟩ := sent
    dsimp only at ht ⊢
    by_cases herr : err = .success
    · rw [if_neg (not_not_intro herr)] at ht ⊢
      split_ifs at ht ⊢ with hmore
      · rw [← load_zero s₁ c.pKeyPattern]
        apply finishes_copy (c := { c with errCode := err, offset := c.offset + 1 }) (Nat.zero_le _)
        exact ih (c := { c with errCode := err, offset := c.offset + 1 }) hmore hlen
          (show c.dataLen - (c.offset + 1) < n by omega) ht h
      · subst ht
        exact h
    · rw [if_pos herr] at ht ⊢
      subst ht
      exact h

theorem finishes_rest (s : State sdk) (f : DequeueFrame) :
    (firmware sdk).Finishes ⟨s, some { f with next := .rest }⟩ (afterDequeue f.txFlag s) := by
  apply finishes_statement
  exact Program.finishes_idle

/-- The statements of the removal are `bufferRemove`. -/
theorem finishes_clear (hc : 0 < s.bufferList.count) :
    (firmware sdk).Finishes ⟨s, some { f with next := .clear }⟩
      (afterDequeue f.txFlag { s with bufferList := bufferRemove s.bufferList }) := by
  have hcount : u8 (s.bufferList.count + 255) = u8 (s.bufferList.count - 1) := by
    rw [show s.bufferList.count + 255 = s.bufferList.count - 1 + 2 ^ 8 by omega]
    exact Nat.add_mod_right _ _
  have hdone := finishes_rest { s with bufferList := bufferRemove s.bufferList } f
  simp only [bufferRemove, wrapIndex] at hdone ⊢
  rw [← hcount] at hdone ⊢
  -- clear, advance, load, store and wrap
  iterate 5 apply finishes_statement
  exact hdone

/-- The statements of a dequeue with transmission. -/
theorem finishes_transmit (hc : 0 < s.bufferList.count)
    (hoff : (s.bufferList.buffer s.bufferList.rp).dataOffset ≤
      (s.bufferList.buffer s.bufferList.rp).dataLen)
    (hlen : (s.bufferList.buffer s.bufferList.rp).dataLen + 1 < 65536) {u : ErrCode} :
    (firmware sdk).Finishes ⟨s, some ⟨true, u, .arguments s.bufferList.rp⟩⟩
      (afterDequeue true (bufferDequeue s u true).2) := by
  obtain ⟨l, rs, hstate, -⟩ := send_handed s u
    (s.bufferList.buffer s.bufferList.rp).pInstance (s.bufferList.buffer s.bufferList.rp).pData
    (s.bufferList.buffer s.bufferList.rp).dataLen (s.bufferList.buffer s.bufferList.rp).dataOffset
  unfold bufferDequeue
  rw [if_neg (by rw [bufferListEmpty_iff]; omega), if_pos rfl]
  dsimp only
  unfold sendKeyScanPressRelease at hstate ⊢
  generalize ht : sendLoop _ s u _ _ _ _ = t at hstate ⊢
  have hb : t.state.bufferList = s.bufferList := by
    rw [hstate]
    rfl
  apply finishes_statement
  simp only [statement]
  rw [← load_zero s (s.bufferList.buffer s.bufferList.rp).pData]
  apply finishes_copy (f := ⟨true, u, .arguments s.bufferList.rp⟩) (Nat.zero_le _)
  refine finishes_send _ hoff hlen ?_ ht ?_
  · show (s.bufferList.buffer s.bufferList.rp).dataLen -
      (s.bufferList.buffer s.bufferList.rp).dataOffset < _
    omega
  apply finishes_statement
  simp only [statement]
  rw [hb]
  by_cases hkeep : t.errCode = .noTxPackets ∧
      t.actualLen ≤ (s.bufferList.buffer s.bufferList.rp).dataLen
  · rw [if_pos hkeep, if_pos hkeep]
    apply finishes_statement
    simp only [statement]
    rw [hb]
    exact finishes_rest _ ⟨true, u, .empty⟩
  · rw [if_neg hkeep, if_neg hkeep, ← hb]
    exact finishes_clear (f := ⟨true, u, .empty⟩) (by rwa [hb])

theorem finishes_dequeue (hslots : SlotsInPattern s.bufferList) (txFlag : Bool) (u : ErrCode) :
    (firmware sdk).Finishes ⟨s, some ⟨txFlag, u, .empty⟩⟩
      (afterDequeue txFlag (bufferDequeue s u txFlag).2) := by
  apply finishes_statement
  simp only [statement]
  rcases Nat.eq_zero_or_pos s.bufferList.count with hc | hc
  · rw [bufferDequeue_empty u txFlag hc, if_pos (bufferListEmpty_iff.mpr hc)]
    exact finishes_rest s ⟨txFlag, u, .empty⟩
  have hempty : ¬ bufferListEmpty s.bufferList = true := by
    rw [bufferListEmpty_iff]
    omega
  rw [if_neg hempty]
  apply finishes_statement
  cases txFlag with
  | false =>
    rw [bufferDequeue_false u hc]
    exact finishes_clear (f := ⟨false, u, .empty⟩) hc
  | true =>
    obtain ⟨hoff, hlen⟩ := hslots s.bufferList.rp
    exact finishes_transmit hc hoff (by unfold joystickInputReportKeysMaxLen at hlen; omega)

/-- **A handler left alone**: the main loop comes to what the handler does in one piece. -/
theorem finishes_dispatch (hslots : SlotsInPattern s.bufferList) {i : Input}
    (hi : i.evt.interrupts = false) : (firmware sdk).Finishes (dispatch s i) (step s i) := by
  obtain ⟨e, u⟩ := i
  cases e with
  | uart e | adc e => cases hi
  | hids e | pm e | adv e => exact Program.finishes_idle
  | ble e =>
    cases e with
    | txComplete n => exact finishes_dequeue (s := deliver s (.ble (.txComplete n))) hslots true u
    | disconnected => exact finishes_dequeue (s := deliver s (.ble .disconnected)) hslots false u
    | _ => exact Program.finishes_idle

end Alone

/-- **Between the handlers an interrupt is an event like any other**: when no event comes while the
main loop is in `buffer_dequeue`, the main loop comes to the end of the handler it is in, and then
the state is that of the events handled one after the other, each in one piece. -/
theorem preempted_sequential (link : sdk.Link) (pm : sdk.Pm) (uart : sdk.Uart)
    {slices : List (Slice Input)}
    (h : Along (firmware sdk).slice Program.Sequential (preemptedBoot link pm uart) slices) :
    ∃ n, run (firmware sdk).slice (preemptedBoot link pm uart)
        (slices ++ List.replicate n .thread) =
      ⟨run step (boot link pm uart) (events slices), none⟩ := by
  have hfinishes : (firmware sdk).Finishes
      (run (firmware sdk).slice (preemptedBoot link pm uart) slices)
      (run step (boot link pm uart) (events slices)) :=
    Program.sequential (I := fun s : State sdk => SlotsInPattern s.bufferList)
      (fun _ i hs => step_slots hs i) (fun _ _ hs hi => finishes_dispatch hs hi)
      Program.finishes_idle (slots_boot link pm uart) h
  obtain ⟨n, hn⟩ := hfinishes
  exact ⟨n, by rw [run_append, hn]⟩

/-- A change with copies left over, and the main loop in the middle of the dequeue. -/
theorem preempted_sequential_dequeue :
    ∃ n, run (firmware (device 1)).slice
        (preemptedBoot (deviceLink 1) (devicePm 1) (deviceUart 1))
        ([.event (frame 0 1), .event (txComplete 1), .thread, .thread] ++
          List.replicate n .thread) =
      ⟨run step (deviceBoot 1) (events [.event (frame 0 1), .event (txComplete 1), .thread,
        .thread]), none⟩ :=
  preempted_sequential (deviceLink 1) (devicePm 1) (deviceUart 1) (by decide)

end SnesController
