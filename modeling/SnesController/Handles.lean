import SnesController.Conduct

/-!
# Connection handles

One central connects at a time. `m_conn_handle` follows the connection whatever else happens
(`run_mConnHandle`), and some of the firmware's calls name a connection: the handle of the event
that is handled, or, for a memory request, `m_conn_handle`. `callsCurrent_iff` says for which runs
every such call names the connection that is up.
-/

namespace SnesController

open EventRun

variable {sdk : Sdk}

/-- The connection after an event, from that before. -/
def connAfter (conn : Option ℕ) : Event → Option ℕ
  | .ble (.connected connHandle) => some connHandle
  | .ble .disconnected => none
  | _ => conn

/-- The connection that is up after the events `es` from a reset. -/
def connection (es : List Input) : Option ℕ := es.foldl (fun conn i => connAfter conn i.evt) none

theorem connection_concat (es : List Input) (i : Input) :
    connection (es ++ [i]) = connAfter (connection es) i.evt :=
  List.foldl_concat _ _ _ _

theorem Handled.mConnHandle_eq {s s' : State sdk} {e : Event} (h : Handled s e s')
    (hne : ∀ x, e ≠ .ble x) : s'.mConnHandle = s.mConnHandle := by
  cases h with
  | ble x => exact absurd rfl (hne x)
  | _ => rfl

/-- Only a connection and its end change `m_conn_handle`. -/
theorem step_mConnHandle (s : State sdk) {i : Input} {conn : Option ℕ}
    (h : s.mConnHandle = conn.getD bleConnHandleInvalid) :
    (step s i).mConnHandle = (connAfter conn i.evt).getD bleConnHandleInvalid := by
  obtain ⟨e, u⟩ := i
  cases e with
  | ble e =>
    rw [step_ble]
    cases e with
    | connected c => rfl
    | disconnected =>
      obtain ⟨pm, wc, es, heq⟩ := whitelistUpdate_frame
        { (bufferDequeue (deliver s (.ble .disconnected)) u false).2 with
          mConnHandle := bleConnHandleInvalid }
      simp only [onBleEvt]
      rw [heq]
      rfl
    | txComplete n =>
      obtain ⟨l, rs, b, heq, -⟩ := bufferDequeue_handed (deliver s (.ble (.txComplete n))) u true
      simp only [onBleEvt]
      rw [heq]
      exact h
    | rwAuthorizeRequest c type op =>
      simp only [onBleEvt]
      split_ifs <;> exact h
    | _ => exact h
  | _ => exact ((step_handled s ⟨_, u⟩).mConnHandle_eq (by simp)).trans h

/-- **`m_conn_handle` follows the connection**, in every run. -/
theorem run_mConnHandle (link : sdk.Link) (pm : sdk.Pm) (uart : sdk.Uart) (es : List Input) :
    (run step (boot link pm uart) es).mConnHandle =
      (connection es).getD bleConnHandleInvalid := by
  induction es using List.reverseRecOn with
  | nil => rfl
  | append_singleton es i ih =>
    rw [run_concat, connection_concat]
    exact step_mConnHandle _ ih

/-! ### The calls that name a connection -/

/-- The connection a call of the link names, if it names one. -/
def LinkCall.connHandle : LinkCall → Option ℕ
  | .sdBleGapDisconnect connHandle | .sdBleUserMemReply connHandle
  | .sdBleGattsRwAuthorizeReply connHandle _ _ => some connHandle
  | _ => none

/-- The connection a call of the Peer Manager names, if it names one. -/
def PmCall.connHandle : PmCall → Option ℕ
  | .pmConnSecure connHandle _ | .pmConnSecConfigReply connHandle _ => some connHandle
  | _ => none

/-- A connection named is the one that is up. -/
def Current (conn named : Option ℕ) : Prop := ∀ c ∈ named, conn = some c

/-- Every call made for an event names the connection that is up, if it names one. -/
def CallsCurrent (conn : Option ℕ) (s : State (recording sdk)) (i : Input) : Prop :=
  (∀ x ∈ newLinkCalls s i, Current conn x.1.connHandle) ∧
    ∀ y ∈ newPmCalls s i, Current conn y.1.connHandle

/-- **An event is of the connection that is up**, if the firmware's answer names one: a time-out, a
missing key, a request for the configuration, or a request for an authorization that is refused, is
of that connection, and a request for memory comes while there is one. -/
def OfCurrent (conn : Option ℕ) : Event → Prop
  | .ble (.gattcTimeout c) | .ble (.gattsTimeout c) | .pm (.connSecFailed c true)
  | .pm (.connSecConfigReq c) => conn = some c
  | .ble .userMemRequest => conn.isSome
  | .ble (.rwAuthorizeRequest c type op) =>
    type ≠ .invalid → op = .prepWriteReq ∨ op = .execWriteReqNow ∨ op = .execWriteReqCancel →
      conn = some c
  | _ => True

/-- The calls made name what the requests name: reports name no connection. -/
theorem callsCurrent_iff_requests (conn : Option ℕ) (s : State (recording sdk)) (i : Input) :
    CallsCurrent conn s i ↔
      (∀ c ∈ linkRequests (deliver s i.evt) i.evt, Current conn c.connHandle) ∧
        ∀ c ∈ pmRequests (deliver s i.evt) i.evt, Current conn c.connHandle := by
  have hnew := step_new s i
  rw [← hnew.link, ← hnew.pm]
  unfold CallsCurrent
  rw [List.forall_mem_map]
  refine and_congr ⟨fun h c hc => ?_, fun h x hx => ?_⟩ Iff.rfl
  · obtain ⟨x, hx, rfl⟩ := List.mem_map.mp (List.mem_filter.mp hc).1
    exact h x hx
  · by_cases hreport : x.1.IsReport
    · obtain ⟨c, a⟩ := x
      cases c with
      | bleHidsInpRepSend => rintro c ⟨⟩
      | _ => exact hreport.elim
    · exact h x.1 (List.mem_filter.mpr ⟨List.mem_map_of_mem hx, decide_eq_true hreport⟩)

/-- **One event**: while `m_conn_handle` follows the connection, its calls name the connection that
is up exactly when the event is of it. -/
theorem step_callsCurrent (conn : Option ℕ) (s : State (recording sdk)) (i : Input)
    (h : s.mConnHandle = conn.getD bleConnHandleInvalid) :
    CallsCurrent conn s i ↔ OfCurrent conn i.evt := by
  rw [callsCurrent_iff_requests]
  obtain ⟨e, u⟩ := i
  cases e with
  | uart e | hids e => simp [linkRequests, pmRequests, OfCurrent]
  | adv e =>
    cases e with
    | peerAddrRequest =>
      simp only [linkRequests, peerAddrReply]
      split_ifs <;> simp [pmRequests, OfCurrent, Current, LinkCall.connHandle]
    | _ => simp [linkRequests, pmRequests, OfCurrent, Current, LinkCall.connHandle]
  | adc e =>
    cases e <;> simp [linkRequests, pmRequests, OfCurrent, Current, LinkCall.connHandle]
  | pm e =>
    cases e with
    | connSecFailed c missing =>
      cases missing <;> simp [linkRequests, pmRequests, OfCurrent, Current, PmCall.connHandle]
    | _ => simp [linkRequests, pmRequests, OfCurrent, Current, LinkCall.connHandle,
        PmCall.connHandle, listCalls]
  | ble e =>
    cases e with
    | userMemRequest =>
      have hup : conn = some (conn.getD bleConnHandleInvalid) ↔ conn.isSome = true := by
        cases conn <;> simp
      simp [linkRequests, pmRequests, OfCurrent, Current, LinkCall.connHandle, deliver, h, hup]
    | rwAuthorizeRequest c type op =>
      simp only [linkRequests, authorizeReply]
      by_cases hasked : type ≠ .invalid ∧
          (op = .prepWriteReq ∨ op = .execWriteReqNow ∨ op = .execWriteReqCancel)
      · rw [if_pos hasked]
        simp [pmRequests, OfCurrent, Current, LinkCall.connHandle, hasked.1, hasked.2]
      · rw [if_neg hasked]
        refine iff_of_true ⟨by simp, by simp [pmRequests]⟩ ?_
        intro htype hop
        exact absurd ⟨htype, hop⟩ hasked
    | disconnected =>
      simp only [linkRequests, pmRequests]
      split_ifs <;> simp [OfCurrent, Current, PmCall.connHandle, listCalls]
    | _ => simp [linkRequests, pmRequests, OfCurrent, Current, LinkCall.connHandle]

/-- **Every call of a run names the connection that is up, if it names one, exactly when every event
that makes the firmware name one is of it.** -/
theorem callsCurrent_iff (link : sdk.Link) (pm : sdk.Pm) (uart : sdk.Uart) (es : List Input) :
    (∀ p i, p ++ [i] <+: es →
        CallsCurrent (connection p) (run step (recordedBoot link pm uart) p) i) ↔
      ∀ p i, p ++ [i] <+: es → OfCurrent (connection p) i.evt := by
  have hstep : ∀ p i, CallsCurrent (connection p) (run step (recordedBoot link pm uart) p) i ↔
      OfCurrent (connection p) i.evt :=
    fun p i => step_callsCurrent _ _ i (run_mConnHandle _ _ _ p)
  constructor
  · intro h p i hp
    exact (hstep p i).mp (h p i hp)
  · intro h p i hp
    exact (hstep p i).mpr (h p i hp)

end SnesController
