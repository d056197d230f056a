import SnesController.Buffer
import SnesController.Library.ReportMap

/-!
# Key reports and the HID service

The rest of `my_ble_services.c`: `keys_send`, which transmits a key pattern and buffers what
the link had no room for; `on_hids_evt`, which follows the protocol mode; and the report
map the service is set up with.

`KeysSent` says once what `keys_send` can do in report mode.
-/

namespace SnesController

open RingBuffer

variable {sdk : Sdk}

/-- `JOYSTICK_REPORT_ID`. -/
def joystickReportId : UInt8 := 0x03

/-- `report_map_data` of `gamepad_hids_init`. -/
def reportMapData : List UInt8 :=
  [0x05, 0x01, 0x09, 0x04, 0xa1, 0x01, 0x85, joystickReportId,
    -- 12 buttons
    0x05, 0x09, 0x19, 0x01, 0x29, 0x0c, 0x15, 0x00, 0x25, 0x01, 0x75, 0x01, 0x95, 0x0c,
    0x55, 0x00, 0x65, 0x00, 0x81, 0x02,
    0xc0]

/-- The map lays out twelve fields of one bit, buttons 1 to 12, from bit 0 of report 3. -/
theorem inputs_reportMapData :
    ReportMap.inputs reportMapData = [⟨3, ReportMap.buttonPage, 1, 12, 0, 1, 12⟩] := by decide

/-- `keys_send`. -/
def keysSend (s : State sdk) (uninit : ErrCode) (keyPatternLen : ℕ) (pKeyPattern : PatternPtr) :
    State sdk :=
  let t := sendKeyScanPressRelease s uninit .mHids pKeyPattern keyPatternLen 0
  let s₁ :=
    if t.errCode = .noTxPackets ∧ t.actualLen ≤ keyPatternLen then
      { t.state with bufferList :=
          (bufferEnqueue t.state.bufferList .mHids pKeyPattern keyPatternLen t.actualLen).2 }
    else t.state
  appErrorHandlerIf (t.errCode ≠ .success ∧ t.errCode ≠ .invalidState ∧
    t.errCode ≠ .noTxPackets ∧ t.errCode ≠ .gattsSysAttrMissing) s₁ t.errCode

/-- `on_hids_evt`. -/
def onHidsEvt (s : State sdk) : HidsEvt → State sdk
  | .bootModeEntered => { s with mInBootMode := true }
  | .reportModeEntered => { s with mInBootMode := false }
  | .repCharWrite | .notifEnabled | .other => s

/-! ### What `keys_send` does -/

/-- **What `keys_send` can do in report mode**: every copy is taken; `k` are and the next
finds no room, and the rest is buffered; or the link fails otherwise. -/
inductive KeysSent (s : State sdk) (p : PatternPtr) (len : ℕ) : State sdk → Prop where
  | sent (l : sdk.Link) : firstAnswer s .mHids p len = .success →
      KeysSent s p len
        (s.handed l (List.replicate (len + 1) (keyReport s .mHids p len .success)))
  | held (l : sdk.Link) (k : ℕ) : k ≤ len →
      firstAnswer s .mHids p len = (if k = 0 then .noTxPackets else .success) →
      KeysSent s p len
        { s.handed l (List.replicate k (keyReport s .mHids p len .success) ++
            [keyReport s .mHids p len .noTxPackets]) with
          bufferList := (bufferEnqueue s.bufferList .mHids p len k).2 }
  | failed (l : sdk.Link) (k : ℕ) (err : ErrCode) (es : List ErrCode) :
      err ≠ .success → err ≠ .noTxPackets → k ≤ len →
      KeysSent s p len
        { s.handed l (List.replicate k (keyReport s .mHids p len .success) ++
            [keyReport s .mHids p len err]) with
          errors := es }

theorem keysSend_cases {s : State sdk} (uninit : ErrCode) (p : PatternPtr) {len : ℕ}
    (hmode : s.mInBootMode = false) (hlen : len + 1 < 65536) :
    KeysSent s p len (keysSend s uninit len p) := by
  have ht := send_transmits s uninit .mHids p hmode (Nat.zero_le len) hlen
  simp only [keysSend]
  generalize sendKeyScanPressRelease s uninit .mHids p len 0 = t at ht
  cases ht with
  | done l hfirst =>
    rw [if_neg (by rintro ⟨h, -⟩; cases h)]
    exact .sent l hfirst
  | stopped l k err herr hk hfirst =>
    simp only [Nat.zero_add] at hk ⊢
    by_cases htx : err = .noTxPackets
    · subst htx
      rw [if_pos ⟨rfl, hk⟩]
      exact .held l k hk hfirst
    · rw [if_neg (by rintro ⟨h, -⟩; exact htx h)]
      exact .failed l k err _ herr htx hk

/-- **Whatever the mode**, `keys_send` changes only the link, the record of reports, the
buffer and the errors; it hands over its own pattern, and buffers it at most once. -/
theorem keysSend_handed (s : State sdk) (uninit : ErrCode) (len : ℕ) (p : PatternPtr) :
    ∃ l rs b es, keysSend s uninit len p = { s.handed l rs with bufferList := b, errors := es } ∧
      (b = s.bufferList ∨ ∃ k, b = (bufferEnqueue s.bufferList .mHids p len k).2) ∧
      ∀ r ∈ rs, r = keyReport s .mHids p len r.result := by
  obtain ⟨l, rs, hs, hrs⟩ := send_handed s uninit .mHids p len 0
  simp only [keysSend]
  rw [hs]
  split_ifs
  · exact ⟨l, rs, _, _, rfl, .inr ⟨_, rfl⟩, hrs⟩
  · exact ⟨l, rs, _, _, rfl, .inl rfl, hrs⟩

end SnesController
