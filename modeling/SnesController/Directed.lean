import SnesController.Firmware

/-!
# Directed advertising

`on_adv_evt` gives the advertising module the address of the peer in `m_peer_id`. That
variable follows the Peer Manager's events, but it has no initializer, and the test for
`PM_PEER_ID_INVALID` takes the zero the start-up code leaves for a peer: before the first
such event the peer asked for is peer 0. So directed advertising goes to a known peer only
exactly when no address is stored for peer 0 while that lasts (`repliesKnown_iff`).

`stored` is what the Peer Manager has stored for a peer.
-/

namespace SnesController

open EventRun

variable {sdk : Sdk} {stored : sdk.Pm → PeerId → Option ℕ}

/-- **The stored bonding data**: what is stored is loaded, and what is not is not found. -/
structure BondingLaws (sdk : Sdk) (stored : sdk.Pm → PeerId → Option ℕ) : Prop where
  found : ∀ pm p a, stored pm p = some a → sdk.pmPeerDataBondingLoad pm p = (.success, a)
  notFound : ∀ pm p, stored pm p = none → (sdk.pmPeerDataBondingLoad pm p).1 = .notFound

/-! ### The peer of a run -/

/-- The peer an event is about, if it is of the two that say a peer is connected. -/
def peerOf : Event → Option PeerId
  | .pm (.bondedPeerConnected p) | .pm (.connSecSucceeded p _) => some p
  | _ => none

/-- The peer of the most recent such event. -/
def lastPeer (es : List Input) : Option PeerId := (es.filterMap (peerOf ·.evt)).getLast?

theorem lastPeer_concat (es : List Input) (i : Input) :
    lastPeer (es ++ [i]) = (peerOf i.evt).or (lastPeer es) := by
  unfold lastPeer
  rw [List.filterMap_append]
  cases h : peerOf i.evt with
  | none => simp [h]
  | some p => simp [h]

/-- An event sets `m_peer_id` to its peer, if it has one. -/
theorem step_mPeerId (s : State sdk) (i : Input) :
    (step s i).mPeerId = (peerOf i.evt).getD s.mPeerId := by
  obtain ⟨e, u⟩ := i
  cases e with
  | pm e =>
    rw [step_pm]
    cases e with
    | connSecSucceeded p procedure =>
      simp only [pmEvtHandler, whitelistAppend]
      split_ifs <;> rfl
    | connSecFailed c missing => cases missing <;> rfl
    | _ => rfl
  | _ => exact (step_handled s ⟨_, u⟩).mPeerId_eq (by simp)

/-- So `m_peer_id` is the peer of the most recent such event, and what it was at first before
the first. -/
theorem run_mPeerId (s : State sdk) (es : List Input) :
    (run step s es).mPeerId = (lastPeer es).getD s.mPeerId := by
  induction es using List.reverseRecOn with
  | nil => rfl
  | append_singleton es i ih =>
    rw [run_concat, step_mPeerId, lastPeer_concat, ih]
    cases peerOf i.evt <;> rfl

/-! ### The replies -/

/-- The addresses an event has given to `ble_advertising_peer_addr_reply`. -/
def repliedBy (s : State sdk) (i : Input) : List ℕ := (step s i).replies.drop s.replies.length

/-- Only a request for the peer's address is replied to. -/
theorem repliedBy_of_ne {s : State sdk} {i : Input} (h : i.evt ≠ .adv .peerAddrRequest) :
    repliedBy s i = [] := by
  have hsame : (step s i).replies = s.replies := by
    obtain ⟨e, u⟩ := i
    cases e with
    | adv e =>
      cases e with
      | peerAddrRequest => exact absurd rfl h
      | _ => rfl
    | _ => exact (step_handled s ⟨_, u⟩).replies_eq (by simp)
  rw [repliedBy, hsame, List.drop_length]

/-- What is stored for a peer when the handler of an event is called. -/
def storedAt (stored : sdk.Pm → PeerId → Option ℕ) (s : State sdk) (i : Input) (p : PeerId) :
    Option ℕ :=
  stored (sdk.pmDeliver s.pm i.evt) p

/-- A request is replied to with what is stored for the peer in `m_peer_id`. -/
theorem BondingLaws.repliedBy_request (laws : BondingLaws sdk stored) (s : State sdk) {i : Input}
    (hi : i.evt = .adv .peerAddrRequest) :
    repliedBy s i =
      if s.mPeerId = pmPeerIdInvalid then [] else (storedAt stored s i s.mPeerId).toList := by
  obtain ⟨e, u⟩ := i
  dsimp only at hi
  subst hi
  rw [repliedBy, step_adv]
  simp only [onAdvEvt, storedAt]
  by_cases hp : s.mPeerId = pmPeerIdInvalid
  · simp [deliver, hp]
  cases hst : stored (sdk.pmDeliver s.pm (.adv .peerAddrRequest)) s.mPeerId with
  | none => simp [deliver, hp, laws.notFound _ _ hst]
  | some a => simp [deliver, hp, laws.found _ _ _ hst, appErrorCheck, appErrorHandlerIf,
      linkCallChecked]

/-! ### Replies for a known peer -/

/-- **Every reply of a run is for the known peer**: its address is what is stored for the peer
of the most recent event that says one is connected, and there is such an event, with a valid
peer. -/
def RepliesKnown (stored : sdk.Pm → PeerId → Option ℕ) (s : State sdk) (es : List Input) : Prop :=
  ∀ p i, p ++ [i] <+: es → ∀ a ∈ repliedBy (run step s p) i,
    ∃ q, lastPeer p = some q ∧ q ≠ pmPeerIdInvalid ∧ storedAt stored (run step s p) i q = some a

/-- **Nothing is stored for peer 0 when an address is requested** before the first event that
says a peer is connected. -/
def ZeroNotStored (stored : sdk.Pm → PeerId → Option ℕ) (s : State sdk) (es : List Input) : Prop :=
  ∀ p i, p ++ [i] <+: es → i.evt = .adv .peerAddrRequest → lastPeer p = none →
    storedAt stored (run step s p) i 0 = none

/-- Once a peer is known, the replies are for it. -/
theorem BondingLaws.replies_of_lastPeer (laws : BondingLaws sdk stored) {s : State sdk}
    {i : Input} {q : PeerId} (hq : s.mPeerId = q) {a : ℕ} (ha : a ∈ repliedBy s i) :
    q ≠ pmPeerIdInvalid ∧ storedAt stored s i q = some a := by
  by_cases hi : i.evt = .adv .peerAddrRequest
  · rw [laws.repliedBy_request s hi, hq] at ha
    split_ifs at ha with hinv
    · cases ha
    · exact ⟨hinv, Option.mem_toList.mp ha⟩
  · rw [repliedBy_of_ne hi] at ha
    cases ha

/-- Before the first peer, a request is replied to with what is stored for peer 0. -/
theorem BondingLaws.replies_zero (laws : BondingLaws sdk stored) {s : State sdk} {i : Input}
    (hi : i.evt = .adv .peerAddrRequest) (hzero : s.mPeerId = 0) :
    repliedBy s i = (storedAt stored s i 0).toList := by
  rw [laws.repliedBy_request s hi, hzero]
  rfl

/-- **Directed advertising goes to a known peer only exactly when peer 0 is not stored**: from a
reset with any bonding data stored, the replies of a run of any events are all for the peer of
the most recent `PM_EVT_BONDED_PEER_CONNECTED` or `PM_EVT_CONN_SEC_SUCCEEDED` just when no
address is stored for peer 0 at any request that comes before the first of these. -/
theorem repliesKnown_iff (laws : BondingLaws sdk stored) (link : sdk.Link) (pm : sdk.Pm)
    (uart : sdk.Uart) (es : List Input) :
    RepliesKnown stored (boot link pm uart) es ↔ ZeroNotStored stored (boot link pm uart) es := by
  have hpeer : ∀ p, (run step (boot link pm uart) p).mPeerId = (lastPeer p).getD 0 :=
    run_mPeerId (boot link pm uart)
  constructor
  · intro hT p i hp hi hnone
    have hzero : (run step (boot link pm uart) p).mPeerId = 0 := by rw [hpeer, hnone]; rfl
    cases hst : storedAt stored (run step (boot link pm uart) p) i 0 with
    | none => rfl
    | some a =>
      -- the reply would be for no event
      obtain ⟨q, hq, -⟩ := hT p i hp a (by rw [laws.replies_zero hi hzero, hst]; simp)
      rw [hnone] at hq
      cases hq
  · intro hK p i hp a ha
    cases hlast : lastPeer p with
    | some q =>
      obtain ⟨hvalid, hst⟩ := laws.replies_of_lastPeer (q := q) (by rw [hpeer, hlast]; rfl) ha
      exact ⟨q, rfl, hvalid, hst⟩
    | none =>
      have hzero : (run step (boot link pm uart) p).mPeerId = 0 := by rw [hpeer, hlast]; rfl
      by_cases hi : i.evt = .adv .peerAddrRequest
      · rw [laws.replies_zero hi hzero, hK p i hp hi hlast] at ha
        cases ha
      · rw [repliedBy_of_ne hi] at ha
        cases ha

/-! ### On an SDK -/

/-- The address stored for a peer that is bonded. -/
def deviceStored (txBuffers : ℕ) : (device txBuffers).Pm → PeerId → Option ℕ :=
  fun (m : PeerStore) p => if p ∈ m.bonded then some p else none

theorem device_bondingLaws (txBuffers : ℕ) :
    BondingLaws (device txBuffers) (deviceStored txBuffers) where
  found := by
    intro m p a h
    simp only [deviceStored] at h
    split_ifs at h with hmem
    cases h
    exact if_pos hmem
  notFound := by
    intro m p h
    simp only [deviceStored] at h
    split_ifs at h with hmem
    exact congrArg Prod.fst (if_neg hmem)

/-- The firmware after a reset with peers 0 and 3 bonded from before. -/
def bondedBoot : State (device 3) :=
  boot (deviceLink 3) (⟨[0, 3], [], [], by decide, by decide⟩ : PeerStore) (deviceUart 3)

/-- A request for the peer's address. -/
def peerAddrRequest : Input := ⟨.adv .peerAddrRequest, .success⟩

/-- Peer 3 connects and goes: the request is for it. -/
theorem repliesKnown_connected :
    RepliesKnown (deviceStored 3) bondedBoot
      [⟨.pm (.bondedPeerConnected 3), .success⟩, disconnected, peerAddrRequest] := by
  apply (repliesKnown_iff (device_bondingLaws 3) _ _ _ _).mpr
  intro p i hp hi hnone
  obtain ⟨rest, hrest⟩ := hp
  cases p with
  | nil =>
    obtain rfl : i = ⟨.pm (.bondedPeerConnected 3), .success⟩ := (List.cons.inj hrest).1
    cases hi
  | cons j p =>
    obtain rfl : j = ⟨.pm (.bondedPeerConnected 3), .success⟩ := (List.cons.inj hrest).1
    simp [lastPeer, peerOf] at hnone

/-- A peer that is not bonded connects and goes: the request is replied to with the address of
peer 0. -/
theorem replies_for_no_event :
    ¬ RepliesKnown (deviceStored 3) bondedBoot
      [⟨.ble (.connected 1), .success⟩, disconnected, peerAddrRequest] := by
  intro h
  obtain ⟨q, hq, -⟩ := h [⟨.ble (.connected 1), .success⟩, disconnected] peerAddrRequest
    List.prefix_rfl 0 (by decide)
  cases hq

end SnesController
