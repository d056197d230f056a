import SnesController.Globals

/-!
# Transmitting a key pattern

`send_key_scan_press_release` of `my_ble_services.c`: it hands the same report to the link
`pattern_len – offset + 1` times, stopping at the first that is not taken, and says how far
it got. In boot mode nothing is handed to the link and `err_code`, which has no
initializer, keeps whatever its memory held: the parameter `uninit`.

`sendLoop_reportMode` says once what a transmission in report mode is: the report handed over
again and again (`handPattern`). `Transmits` lists what can come of it for a pattern with an offset
in it, and what calls it is proved from that.
-/

namespace SnesController

variable {sdk : Sdk}

/-- After handing reports to the link: only the link and the record of reports change. -/
def State.handed (s : State sdk) (l : sdk.Link) (rs : List Report) : State sdk :=
  { s with link := l, reports := s.reports ++ rs }

/-- `ble_hids_inp_rep_send`. -/
def bleHidsInpRepSend (s : State sdk) (pHids : HidsPtr) (repIndex len : ℕ) (data : List UInt8) :
    ErrCode × State sdk :=
  let answer := sdk.linkCall s.link (.bleHidsInpRepSend pHids repIndex len data)
  (answer.1, s.handed answer.2 [⟨pHids, repIndex, len, data, answer.1⟩])

/-- The buffer `data`: cleared, then the pattern copied to its start. A pattern that is longer is
cut off here, where `memcpy` writes past the end of `data`. -/
def reportData (s : State sdk) (pKeyPattern : PatternPtr) (dataLen : ℕ) : List UInt8 :=
  (s.load pKeyPattern dataLen ++ List.replicate joystickInputReportKeysMaxLen 0).take
    joystickInputReportKeysMaxLen

/-- What `send_key_scan_press_release` returns, `*p_actual_len`, and the state. -/
structure Transmission (sdk : Sdk) where
  errCode : ErrCode
  actualLen : ℕ
  state : State sdk

/-- What a pass of the loop does before it looks at `err_code`: hand the report to the link,
unless in boot mode. -/
def sendPass (s : State sdk) (errCode : ErrCode) (pHids : HidsPtr) (pKeyPattern : PatternPtr)
    (dataLen : ℕ) : ErrCode × State sdk :=
  if s.mInBootMode then (errCode, s)
  else bleHidsInpRepSend s pHids joystickInputReportKeysIndex joystickInputReportKeysMaxLen
    (reportData s pKeyPattern dataLen)

/-- The `do … while (offset <= data_len)` loop, with `errCode` what `err_code` holds before
the pass. The first argument bounds the passes. -/
def sendLoop : ℕ → State sdk → ErrCode → HidsPtr → PatternPtr → ℕ → ℕ → Transmission sdk
  | 0, s, errCode, _, _, _, offset => ⟨errCode, offset, s⟩
  | n + 1, s, errCode, pHids, pKeyPattern, dataLen, offset =>
    let sent := sendPass s errCode pHids pKeyPattern dataLen
    if sent.1 ≠ .success then ⟨sent.1, offset, sent.2⟩
    else if u16 (offset + 1) ≤ dataLen then
      sendLoop n sent.2 sent.1 pHids pKeyPattern dataLen (u16 (offset + 1))
    else ⟨sent.1, u16 (offset + 1), sent.2⟩

/-- `send_key_scan_press_release`. Its `ASSERT` is compiled out of this build; the callers
pass a pattern of at most two bytes. -/
def sendKeyScanPressRelease (s : State sdk) (uninit : ErrCode) (pHids : HidsPtr)
    (pKeyPattern : PatternPtr) (patternLen patternOffset : ℕ) : Transmission sdk :=
  sendLoop (patternLen + 2) s uninit pHids pKeyPattern patternLen patternOffset

/-! ### Which reports are handed to the link -/

/-- The report handed to the link, if it answers `result`. -/
def keyReport (s : State sdk) (pHids : HidsPtr) (pKeyPattern : PatternPtr) (dataLen : ℕ)
    (result : ErrCode) : Report :=
  ⟨pHids, joystickInputReportKeysIndex, joystickInputReportKeysMaxLen,
    reportData s pKeyPattern dataLen, result⟩

/-- What the link answers to the first report of a transmission. -/
def firstAnswer (s : State sdk) (pHids : HidsPtr) (pKeyPattern : PatternPtr) (dataLen : ℕ) :
    ErrCode :=
  (sdk.linkCall s.link (.bleHidsInpRepSend pHids joystickInputReportKeysIndex
    joystickInputReportKeysMaxLen (reportData s pKeyPattern dataLen))).1

theorem reportData_handed (s : State sdk) (l : sdk.Link) (rs : List Report) (p : PatternPtr)
    (dataLen : ℕ) : reportData (s.handed l rs) p dataLen = reportData s p dataLen := by
  cases p <;> rfl

theorem keyReport_handed (s : State sdk) (l : sdk.Link) (rs : List Report) (pHids : HidsPtr)
    (p : PatternPtr) (dataLen : ℕ) (result : ErrCode) :
    keyReport (s.handed l rs) pHids p dataLen result = keyReport s pHids p dataLen result := by
  unfold keyReport
  rw [reportData_handed]

theorem handed_handed (s : State sdk) (l l' : sdk.Link) (rs rs' : List Report) :
    (s.handed l rs).handed l' rs' = s.handed l' (rs ++ rs') := by
  simp [State.handed]

theorem handed_nil (s : State sdk) : s.handed s.link [] = s := by
  simp [State.handed]

/-- A pass in report mode hands the report over once. -/
theorem sendPass_reportMode {s : State sdk} (hmode : s.mInBootMode = false) (errCode : ErrCode)
    (pHids : HidsPtr) (p : PatternPtr) (dataLen : ℕ) :
    sendPass s errCode pHids p dataLen = (firstAnswer s pHids p dataLen,
      s.handed (sdk.linkCall s.link (.bleHidsInpRepSend pHids joystickInputReportKeysIndex
          joystickInputReportKeysMaxLen (reportData s p dataLen))).2
        [keyReport s pHids p dataLen (firstAnswer s pHids p dataLen)]) := by
  unfold sendPass
  rw [hmode]
  rfl

theorem sendPass_handed (s : State sdk) (errCode : ErrCode) (pHids : HidsPtr) (p : PatternPtr)
    (dataLen : ℕ) :
    ∃ l rs, (sendPass s errCode pHids p dataLen).2 = s.handed l rs ∧
      ∀ r ∈ rs, r = keyReport s pHids p dataLen r.result := by
  cases hmode : s.mInBootMode with
  | true => exact ⟨s.link, [], by rw [handed_nil, sendPass, hmode]; rfl, by simp⟩
  | false => exact ⟨_, _, by rw [sendPass_reportMode hmode], by simp [keyReport]⟩

/-- **Whatever the mode**, a transmission changes only the link and the record of reports,
and every report it hands over is the pattern's. -/
theorem sendLoop_handed (n : ℕ) (s : State sdk) (errCode : ErrCode) (pHids : HidsPtr)
    (p : PatternPtr) (dataLen offset : ℕ) :
    ∃ l rs, (sendLoop n s errCode pHids p dataLen offset).state = s.handed l rs ∧
      ∀ r ∈ rs, r = keyReport s pHids p dataLen r.result := by
  induction n generalizing s errCode offset with
  | zero => exact ⟨s.link, [], (handed_nil s).symm, by simp⟩
  | succ n ih =>
    obtain ⟨l, rs, hs, hrs⟩ := sendPass_handed s errCode pHids p dataLen
    simp only [sendLoop]
    split_ifs with h1 h2
    · exact ⟨l, rs, hs, hrs⟩
    · rw [hs]
      obtain ⟨l', rs', hs', hrs'⟩ := ih (s.handed l rs) _ (u16 (offset + 1))
      refine ⟨l', rs ++ rs', by rw [hs', handed_handed], ?_⟩
      intro r hr
      rcases List.mem_append.mp hr with hr | hr
      · exact hrs r hr
      · have := hrs' r hr
        rwa [keyReport_handed] at this
    · exact ⟨l, rs, hs, hrs⟩

theorem send_handed (s : State sdk) (uninit : ErrCode) (pHids : HidsPtr) (p : PatternPtr)
    (patternLen patternOffset : ℕ) :
    ∃ l rs, (sendKeyScanPressRelease s uninit pHids p patternLen patternOffset).state =
        s.handed l rs ∧
      ∀ r ∈ rs, r = keyReport s pHids p patternLen r.result :=
  sendLoop_handed _ s uninit pHids p patternLen patternOffset

/-! ### The same report again and again -/

/-- **What comes of handing the same report over**: the last answer, the link it leaves, and the
reports handed over. -/
structure Attempt (sdk : Sdk) where
  errCode : ErrCode
  link : sdk.Link
  reports : List Report

/-- How many of the reports the link took. -/
def Attempt.taken (t : Attempt sdk) : ℕ := t.reports.countP fun r => r.accepted

/-- An attempt, with a report handed over in front of it. -/
def Attempt.after (r : Report) (t : Attempt sdk) : Attempt sdk :=
  { t with reports := r :: t.reports }

theorem Attempt.taken_after {r : Report} (hr : r.accepted) (t : Attempt sdk) :
    (t.after r).taken = t.taken + 1 :=
  List.countP_cons_of_pos (decide_eq_true hr)

/-- A report is handed over `n` times, or until the link does not take it. -/
def handOver (sdk : Sdk) (call : LinkCall) (report : ErrCode → Report) :
    ℕ → sdk.Link → Attempt sdk
  | 0, l => ⟨.success, l, []⟩
  | n + 1, l =>
    let answer := sdk.linkCall l call
    if answer.1 = .success then (handOver sdk call report n answer.2).after (report .success)
    else ⟨answer.1, answer.2, [report answer.1]⟩

section HandOver

variable {call : LinkCall} {report : ErrCode → Report}

theorem handOver_of_taken {l : sdk.Link} (h : (sdk.linkCall l call).1 = .success) (n : ℕ) :
    handOver sdk call report (n + 1) l =
      (handOver sdk call report n (sdk.linkCall l call).2).after (report .success) := if_pos h

theorem handOver_of_refused {l : sdk.Link} (h : (sdk.linkCall l call).1 ≠ .success) (n : ℕ) :
    handOver sdk call report (n + 1) l =
      ⟨(sdk.linkCall l call).1, (sdk.linkCall l call).2, [report (sdk.linkCall l call).1]⟩ :=
  if_neg h

/-- Every copy is taken, or the last one handed over is the first that is not. -/
theorem handOver_cases (hreport : ∀ err, (report err).result = err) (n : ℕ) (l : sdk.Link)
    {t : Attempt sdk} (ht : handOver sdk call report n l = t) :
    (t.errCode = .success ∧ t.taken = n ∧ t.reports = List.replicate n (report .success)) ∨
      (t.errCode ≠ .success ∧ t.taken < n ∧
        t.reports = List.replicate t.taken (report .success) ++ [report t.errCode]) := by
  induction n generalizing l t with
  | zero =>
    subst ht
    exact .inl ⟨rfl, rfl, rfl⟩
  | succ n ih =>
    by_cases h : (sdk.linkCall l call).1 = .success
    · rw [handOver_of_taken h] at ht
      subst ht
      rw [Attempt.taken_after (hreport .success)]
      rcases ih _ rfl with ⟨herr, htaken, hrs⟩ | ⟨herr, htaken, hrs⟩
      · exact .inl ⟨herr, congrArg (· + 1) htaken, congrArg (report .success :: ·) hrs⟩
      · exact .inr ⟨herr, Nat.succ_lt_succ htaken, congrArg (report .success :: ·) hrs⟩
    · rw [handOver_of_refused h] at ht
      subst ht
      have hrefused : ¬ (report (sdk.linkCall l call).1).accepted := by
        rw [Report.accepted, hreport]
        exact h
      have hnone : Attempt.taken ⟨(sdk.linkCall l call).1, (sdk.linkCall l call).2,
          [report (sdk.linkCall l call).1]⟩ = 0 :=
        List.countP_cons_of_neg (by simpa using hrefused)
      rw [hnone]
      exact .inr ⟨h, n.succ_pos, rfl⟩

end HandOver

/-! ### A transmission in report mode -/

/-- The call that hands a pattern's report over. -/
def reportCall (s : State sdk) (pHids : HidsPtr) (pKeyPattern : PatternPtr) (dataLen : ℕ) :
    LinkCall :=
  .bleHidsInpRepSend pHids joystickInputReportKeysIndex joystickInputReportKeysMaxLen
    (reportData s pKeyPattern dataLen)

theorem reportCall_handed (s : State sdk) (l : sdk.Link) (rs : List Report) (pHids : HidsPtr)
    (p : PatternPtr) (dataLen : ℕ) :
    reportCall (s.handed l rs) pHids p dataLen = reportCall s pHids p dataLen := by
  unfold reportCall
  rw [reportData_handed]

/-- A pattern's report, handed over up to `n` times. -/
def handPattern (s : State sdk) (pHids : HidsPtr) (p : PatternPtr) (dataLen n : ℕ) : Attempt sdk :=
  handOver sdk (reportCall s pHids p dataLen) (keyReport s pHids p dataLen) n s.link

theorem handPattern_cases (s : State sdk) (pHids : HidsPtr) (p : PatternPtr) (dataLen n : ℕ)
    {t : Attempt sdk} (ht : handPattern s pHids p dataLen n = t) :
    (t.errCode = .success ∧ t.taken = n ∧
      t.reports = List.replicate n (keyReport s pHids p dataLen .success)) ∨
    (t.errCode ≠ .success ∧ t.taken < n ∧
      t.reports = List.replicate t.taken (keyReport s pHids p dataLen .success) ++
        [keyReport s pHids p dataLen t.errCode]) :=
  handOver_cases (fun _ => rfl) n s.link ht

/-- When the first is taken, the rest is handed over from the state after it. -/
theorem handPattern_of_taken {s : State sdk} {pHids : HidsPtr} {p : PatternPtr} {dataLen : ℕ}
    (h : firstAnswer s pHids p dataLen = .success) (n : ℕ) :
    handPattern s pHids p dataLen (n + 1) =
      (handPattern (s.handed (sdk.linkCall s.link (reportCall s pHids p dataLen)).2
        [keyReport s pHids p dataLen .success]) pHids p dataLen n).after
          (keyReport s pHids p dataLen .success) := by
  unfold handPattern
  rw [reportCall_handed, funext (keyReport_handed s _ _ pHids p dataLen)]
  exact handOver_of_taken h n

/-- When it is not, that is all. -/
theorem handPattern_of_refused {s : State sdk} {pHids : HidsPtr} {p : PatternPtr} {dataLen : ℕ}
    (h : firstAnswer s pHids p dataLen ≠ .success) (n : ℕ) :
    handPattern s pHids p dataLen (n + 1) =
      ⟨firstAnswer s pHids p dataLen, (sdk.linkCall s.link (reportCall s pHids p dataLen)).2,
        [keyReport s pHids p dataLen (firstAnswer s pHids p dataLen)]⟩ :=
  handOver_of_refused h n

/-- The first report handed over gets the first answer. -/
theorem handPattern_first (s : State sdk) (pHids : HidsPtr) (p : PatternPtr) (dataLen n : ℕ) :
    (handPattern s pHids p dataLen (n + 1)).reports.head?.map (·.result) =
      some (firstAnswer s pHids p dataLen) := by
  by_cases hfirst : firstAnswer s pHids p dataLen = .success
  · rw [handPattern_of_taken hfirst, hfirst]
    rfl
  · rw [handPattern_of_refused hfirst]
    rfl

theorem handPattern_one (s : State sdk) (pHids : HidsPtr) (p : PatternPtr) (dataLen : ℕ) :
    (handPattern s pHids p dataLen 1).errCode = firstAnswer s pHids p dataLen := by
  by_cases hfirst : firstAnswer s pHids p dataLen = .success
  · rw [handPattern_of_taken hfirst, hfirst]
    rfl
  · rw [handPattern_of_refused hfirst]

/-- **A transmission in report mode hands the report over again and again**: as often as there are
offsets from `offset` to `dataLen`, and once when there are none. -/
theorem sendLoop_reportMode (n : ℕ) (s : State sdk) (errCode : ErrCode) (pHids : HidsPtr)
    (p : PatternPtr) {dataLen offset m : ℕ} (hmode : s.mInBootMode = false)
    (hm : m = dataLen - offset) (hlt : offset + m + 1 < 65536) (hn : m < n) :
    sendLoop n s errCode pHids p dataLen offset =
      ⟨(handPattern s pHids p dataLen (m + 1)).errCode,
        offset + (handPattern s pHids p dataLen (m + 1)).taken,
        s.handed (handPattern s pHids p dataLen (m + 1)).link
          (handPattern s pHids p dataLen (m + 1)).reports⟩ := by
  induction n generalizing s errCode offset m with
  | zero => omega
  | succ n ih =>
    have hu : u16 (offset + 1) = offset + 1 := u16_of_lt (by omega)
    unfold sendLoop
    rw [sendPass_reportMode hmode, hu]
    dsimp only
    by_cases hfirst : firstAnswer s pHids p dataLen = .success
    · have htaken : (keyReport s pHids p dataLen .success).accepted := rfl
      rw [if_neg (not_not_intro hfirst), hfirst, handPattern_of_taken hfirst,
        Attempt.taken_after htaken]
      split_ifs with hmore
      · obtain ⟨k, rfl⟩ : ∃ k, m = k + 1 := ⟨m - 1, by omega⟩
        have hrest : sendLoop n (s.handed (sdk.linkCall s.link (reportCall s pHids p dataLen)).2
            [keyReport s pHids p dataLen .success]) .success pHids p dataLen (offset + 1) = _ :=
          ih _ _ (m := k) hmode (by omega) (by omega) (by omega)
        rw [handed_handed, Nat.add_right_comm] at hrest
        exact hrest
      · -- the last pass
        obtain rfl : m = 0 := by omega
        rfl
    · have hrefused : ¬ (keyReport s pHids p dataLen (firstAnswer s pHids p dataLen)).accepted :=
        hfirst
      rw [if_pos hfirst, handPattern_of_refused hfirst, Attempt.taken,
        List.countP_cons_of_neg (by simpa using hrefused)]
      rfl

/-- **What a transmission in report mode can do**, of a pattern with `offset ≤ dataLen`:
every copy is taken, or `k` are and the next is refused. -/
inductive Transmits (s : State sdk) (pHids : HidsPtr) (p : PatternPtr) (dataLen offset : ℕ) :
    Transmission sdk → Prop where
  /-- The link takes every copy. -/
  | done (l : sdk.Link) : firstAnswer s pHids p dataLen = .success →
      Transmits s pHids p dataLen offset
        ⟨.success, dataLen + 1, s.handed l
          (List.replicate (dataLen - offset + 1) (keyReport s pHids p dataLen .success))⟩
  /-- The link takes `k` copies and answers the next with `err`. -/
  | stopped (l : sdk.Link) (k : ℕ) (err : ErrCode) : err ≠ .success → offset + k ≤ dataLen →
      firstAnswer s pHids p dataLen = (if k = 0 then err else .success) →
      Transmits s pHids p dataLen offset
        ⟨err, offset + k, s.handed l
          (List.replicate k (keyReport s pHids p dataLen .success) ++
            [keyReport s pHids p dataLen err])⟩

/-- **A transmission in report mode.** -/
theorem send_transmits (s : State sdk) (uninit : ErrCode) (pHids : HidsPtr) (p : PatternPtr)
    {patternLen patternOffset : ℕ} (hmode : s.mInBootMode = false)
    (hoff : patternOffset ≤ patternLen) (hlen : patternLen + 1 < 65536) :
    Transmits s pHids p patternLen patternOffset
      (sendKeyScanPressRelease s uninit pHids p patternLen patternOffset) := by
  obtain ⟨m, hm⟩ : ∃ m, m = patternLen - patternOffset := ⟨_, rfl⟩
  have hfirst := handPattern_first s pHids p patternLen m
  unfold sendKeyScanPressRelease
  rw [sendLoop_reportMode (patternLen + 2) s uninit pHids p hmode hm (by omega) (by omega)]
  generalize ht : handPattern s pHids p patternLen (m + 1) = t at hfirst ⊢
  obtain ⟨herr, htaken, hrs⟩ | ⟨herr, htaken, hrs⟩ := handPattern_cases s pHids p patternLen _ ht
  · rw [hrs] at hfirst
    have hdone : Transmits s pHids p patternLen patternOffset _ :=
      .done t.link (Option.some.inj hfirst).symm
    rw [herr, htaken, hrs, hm, show patternOffset + (patternLen - patternOffset + 1) =
      patternLen + 1 by omega]
    exact hdone
  · have hanswer : firstAnswer s pHids p patternLen =
        if t.taken = 0 then t.errCode else .success := by
      rw [hrs] at hfirst
      cases htaken' : t.taken with
      | zero =>
        rw [htaken'] at hfirst
        exact (Option.some.inj hfirst).symm
      | succ k =>
        rw [htaken'] at hfirst
        exact (Option.some.inj hfirst).symm
    rw [hrs]
    exact .stopped t.link t.taken t.errCode herr (by omega) hanswer

/-! ### A transmission in boot mode -/

/-- In boot mode nothing is handed over, and what is returned is what `err_code` held. -/
theorem sendLoop_bootMode (n : ℕ) {s : State sdk} (errCode : ErrCode) (pHids : HidsPtr)
    (p : PatternPtr) {dataLen offset m : ℕ} (hmode : s.mInBootMode = true)
    (hm : m = dataLen - offset) (hlt : offset + m + 1 < 65536) (hn : m < n) :
    sendLoop n s errCode pHids p dataLen offset =
      ⟨errCode, if errCode = .success then offset + m + 1 else offset, s⟩ := by
  induction n generalizing offset m with
  | zero => omega
  | succ n ih =>
    have hu : u16 (offset + 1) = offset + 1 := u16_of_lt (by omega)
    simp only [sendLoop, sendPass, hmode, if_true, hu]
    by_cases herr : errCode = .success
    · rw [if_neg (not_not_intro herr), if_pos herr]
      split_ifs with hmore
      · obtain ⟨k, rfl⟩ : ∃ k, m = k + 1 := ⟨m - 1, by omega⟩
        have hrest : sendLoop n s errCode pHids p dataLen (offset + 1) = _ :=
          ih (m := k) (by omega) (by omega) (by omega)
        rw [hrest, if_pos herr, Nat.add_right_comm offset 1 k]
        rfl
      · -- the last pass
        obtain rfl : m = 0 := by omega
        rfl
    · rw [if_pos herr, if_neg herr]

/-! ### The link -/

/-- In report mode the link is as some call of `ble_hids_inp_rep_send` left it: there is at
least one, wherever the offset. -/
theorem sendLoop_link (n : ℕ) (s : State sdk) (errCode : ErrCode) (pHids : HidsPtr)
    (p : PatternPtr) (dataLen offset : ℕ) (hmode : s.mInBootMode = false) :
    ∃ l, (sendLoop (n + 1) s errCode pHids p dataLen offset).state.link =
      (sdk.linkCall l (.bleHidsInpRepSend pHids joystickInputReportKeysIndex
        joystickInputReportKeysMaxLen (reportData s p dataLen))).2 := by
  induction n generalizing s errCode offset with
  | zero =>
    unfold sendLoop
    rw [sendPass_reportMode hmode]
    dsimp only
    split_ifs <;> exact ⟨s.link, rfl⟩
  | succ n ih =>
    rw [sendLoop, sendPass_reportMode hmode]
    dsimp only
    split_ifs
    · exact ⟨s.link, rfl⟩
    · obtain ⟨l, hl⟩ := ih (s.handed (sdk.linkCall s.link (.bleHidsInpRepSend pHids
        joystickInputReportKeysIndex joystickInputReportKeysMaxLen (reportData s p dataLen))).2
        [keyReport s pHids p dataLen (firstAnswer s pHids p dataLen)]) _ (u16 (offset + 1)) hmode
      rw [reportData_handed] at hl
      exact ⟨l, hl⟩
    · exact ⟨s.link, rfl⟩

end SnesController
