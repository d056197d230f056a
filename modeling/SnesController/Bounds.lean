import SnesController.Overfull
import SnesController.ReportMode
import SnesController.WhitelistPath

/-!
# What stays in bounds

Two things that hold in every run from a reset: any events in any order, in either mode, with any
answers of the SDK, and also when the key buffer is overfull.

* Every index the firmware uses is within its array, and no copy of a pattern reads more than the
  two bytes of `keypad_state` or writes more than the report has room for (`inBounds_run`).
* Every report is handed over as the HID service was set up to take it: on `m_hids`, the one input
  report, at its full length, with that many bytes of data.

An overfull buffer may transmit from an entry whose pointer is null, but never from an entry of
another length or for another service.
-/

namespace SnesController

open RingBuffer EventRun

variable {sdk : Sdk}

/-- An entry of the HID service made by `keys_send`, two bytes long, perhaps with its pointer
cleared. -/
structure BufferEntry.Made (e : BufferEntry) : Prop where
  pInstance : e.pInstance = .mHids
  pData : e.pData = .keypadState ∨ e.pData = .null
  dataLen : e.dataLen = 2

/-- A report the HID service takes: its only input report, all of it. -/
structure Report.Fits (r : Report) : Prop where
  pHids : r.pHids = .mHids
  repIndex : r.repIndex = joystickInputReportKeysIndex
  len : r.len = joystickInputReportKeysMaxLen
  length_data : r.data.length = r.len

/-- **What stays in bounds**: the indices and the count of the key buffer, the lengths of patterns
in its slots, the counter of the whitelist, and the reports handed over. -/
structure InBounds (s : State sdk) : Prop where
  live : s.bufferList.ring.Live maxBufferEntries BufferEntry.Made
  count_le : s.bufferList.count ≤ maxBufferEntries + 1
  slots : SlotsInPattern s.bufferList
  whitelist : WhitelistState s
  reports : ∀ r ∈ s.reports, r.Fits

/-! ### Reports -/

theorem length_reportData (s : State sdk) (p : PatternPtr) (dataLen : ℕ) :
    (reportData s p dataLen).length = joystickInputReportKeysMaxLen := by
  simp [reportData]

theorem keyReport_fits (s : State sdk) (p : PatternPtr) (dataLen : ℕ) (result : ErrCode) :
    (keyReport s .mHids p dataLen result).Fits :=
  ⟨rfl, rfl, rfl, length_reportData s p dataLen⟩

/-- What a frame hands over, in either mode: reports of its key state. -/
theorem rxDone_reports (s : State sdk) (b₀ b₁ : UInt8) (u : ErrCode) :
    ∃ rs, (step s ⟨.uart (.rxDone b₀ b₁), u⟩).reports = s.reports ++ rs ∧
      ∀ r ∈ rs, r = stateReport (combinedState (b₀, b₁)) r.result := by
  by_cases hne : combinedState (b₀, b₁) = s.keypadState
  · rw [step_rxDone_of_eq u hne]
    exact ⟨[], (List.append_nil _).symm, by simp⟩
  · obtain ⟨l, rs, b, es, heq, -, hrs⟩ := keysSend_handed (changedState s b₀ b₁) u 2 .keypadState
    rw [step_rxDone_of_ne u hne, heq]
    exact ⟨rs, rfl, hrs⟩

theorem stateReport_fits (v : UInt16) (result : ErrCode) : (stateReport v result).Fits :=
  ⟨rfl, rfl, rfl, rfl⟩

theorem entryReport_fits (s : State sdk) {e : BufferEntry} (he : e.Made) (result : ErrCode) :
    (entryReport s e result).Fits := by
  unfold entryReport
  rw [he.pInstance]
  exact keyReport_fits s e.pData e.dataLen result

/-! ### Runs -/

theorem inBounds_boot (link : sdk.Link) (pm : sdk.Pm) (uart : sdk.Uart) :
    InBounds (boot link pm uart) := by
  obtain ⟨⟨halign, -⟩, -⟩ := bufferInit_queue (State.reset link pm uart)
  exact ⟨⟨halign, fun i hi => absurd hi (Nat.not_lt_zero i)⟩, Nat.zero_le _,
    slots_boot link pm uart, boot_state link pm uart, by rintro r ⟨⟩⟩

/-- The entries held, and how many. -/
def Holds (b : BufferList) : Prop :=
  b.ring.Live maxBufferEntries BufferEntry.Made ∧ b.count ≤ maxBufferEntries + 1

theorem Holds.enqueue {b : BufferList} (h : Holds b) (k : ℕ) :
    Holds (bufferEnqueue b .mHids .keypadState 2 k).2 := by
  obtain ⟨hlive, hc⟩ := h
  rcases Nat.eq_or_lt_of_le hc with hfull | hlt
  · rw [bufferEnqueue_full hfull]
    exact ⟨hlive, hc⟩
  · have hle : b.count ≤ maxBufferEntries := Nat.le_of_lt_succ hlt
    rw [bufferEnqueue_eq hlive.wp_lt hle]
    exact ⟨hlive.push ⟨rfl, .inl rfl, rfl⟩, Nat.succ_le_succ hle⟩

theorem Holds.remove {b : BufferList} (h : Holds b) (hc : 0 < b.count) :
    Holds (bufferRemove b) := by
  obtain ⟨hlive, hle⟩ := h
  rw [bufferRemove_eq hlive.rp_lt hle]
  have hhead := hlive.head hc
  exact ⟨hlive.pop_leaving hc ⟨hhead.pInstance, .inr rfl, hhead.dataLen⟩,
    (Nat.sub_le _ 1).trans hle⟩

theorem Holds.keep {b : BufferList} (h : Holds b) (hc : 0 < b.count) (a : ℕ) :
    Holds (bufferKeep b a) := by
  obtain ⟨hlive, hle⟩ := h
  have hhead := hlive.head hc
  exact ⟨hlive.setHead ⟨hhead.pInstance, hhead.pData, hhead.dataLen⟩, hle⟩

/-- One event keeps the entries so, and hands over only reports that fit. -/
theorem Holds.step {s : State sdk} (h : Holds s.bufferList) (i : Input) :
    Holds (step s i).bufferList ∧
      ∃ rs, (SnesController.step s i).reports = s.reports ++ rs ∧ ∀ r ∈ rs, r.Fits := by
  have hnone : ∀ {s' : State sdk}, s'.reports = s.reports →
      ∃ rs, s'.reports = s.reports ++ rs ∧ ∀ r ∈ rs, r.Fits :=
    fun heq => ⟨[], by rw [heq, List.append_nil], by simp⟩
  have heff := step_keyEffect s i
  obtain ⟨e, u⟩ := i
  cases heff with
  | other _ hs | unchanged _ hs | idle _ hs | flushed _ hs =>
    rw [hs.bufferList]
    exact ⟨h, hnone hs.reports⟩
  | mode hb _ hr =>
    rw [hb]
    exact ⟨h, hnone hr⟩
  | @changed b₀ b₁ _ _ _ _ _ hb =>
    obtain ⟨rs, hr, hrs⟩ := rxDone_reports s b₀ b₁ u
    refine ⟨?_, rs, hr, ?_⟩
    · rcases hb with hb | ⟨k, hb⟩
      · rw [hb]
        exact h
      · rw [hb]
        exact h.enqueue k
    · intro r hmem
      rw [hrs r hmem]
      exact stateReport_fits _ _
  | dequeued rs hc _ hr hrs hb =>
    refine ⟨?_, rs, hr, ?_⟩
    · rcases hb with hb | hb | ⟨a, hb⟩
      · rw [hb]
        exact h
      · rw [hb]
        exact h.remove hc
      · rw [hb]
        exact h.keep hc a
    · intro r hmem
      rw [hrs r hmem]
      exact entryReport_fits s (h.1.head hc) _
  | dropped hc hb _ hr =>
    rw [hb]
    exact ⟨h.remove hc, hnone hr⟩

theorem InBounds.step {s : State sdk} (h : InBounds s) (i : Input) :
    InBounds (SnesController.step s i) := by
  obtain ⟨⟨hlive, hc⟩, rs, hr, hrs⟩ := Holds.step ⟨h.live, h.count_le⟩ i
  refine ⟨hlive, hc, step_slots h.slots i, (step_listEffect h.whitelist i).1, ?_⟩
  intro r hmem
  rw [hr] at hmem
  rcases List.mem_append.mp hmem with hmem | hmem
  · exact h.reports r hmem
  · exact hrs r hmem

/-- **Every run stays in bounds**: whatever happens after a reset, the indices of the key buffer
are within its array and agree with its count, which is at most one over the capacity; no slot
holds a pattern longer than two bytes or an offset beyond its length; the whitelist's counter is
within its array; and every report handed over is one the HID service takes. -/
theorem inBounds_run (link : sdk.Link) (pm : sdk.Pm) (uart : sdk.Uart) (es : List Input) :
    InBounds (run step (boot link pm uart) es) :=
  Along.run_inv (I := InBounds) (fun _ i h _ => h.step i) (along_true _ es)
    (inBounds_boot link pm uart)

end SnesController
