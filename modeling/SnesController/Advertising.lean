import SnesController.Globals

/-!
# Advertising

`my_ble_advertising.c`: `peer_list_get` fills the whitelist from the Peer Manager's
enumeration, `advertising_start` rebuilds and hands over the whitelist, and `on_adv_evt`
answers the advertising module. Log output is left out.
-/

namespace SnesController

open Enumeration

variable {sdk : Sdk}

/-- The loop of `peer_list_get`; the first argument is `peers_to_copy`. -/
def peerListLoop (next : PeerId → PeerId) : ℕ → List PeerId → ℕ → PeerId → List PeerId × ℕ
  | 0, pPeers, size, _ => (pPeers, size)
  | peersToCopy + 1, pPeers, size, peerId =>
    if peerId ≠ pmPeerIdInvalid then
      peerListLoop next peersToCopy (pPeers.set size peerId) (size + 1) (next peerId)
    else (pPeers, size)

/-- `peer_list_get`: the buffer and `*p_size` afterwards. -/
def peerListGet (sdk : Sdk) (pm : sdk.Pm) (pPeers : List PeerId) (pSize : ℕ) : List PeerId × ℕ :=
  let peersToCopy :=
    if pSize < sdk.bleGapWhitelistAddrMaxCount then pSize else sdk.bleGapWhitelistAddrMaxCount
  peerListLoop (sdk.pmNextPeerIdGet pm) peersToCopy pPeers 0
    (sdk.pmNextPeerIdGet pm pmPeerIdInvalid)

/-- What `memset` leaves in every `pm_peer_id_t` when it fills with the low byte of `c`. -/
def memsetPeerId (c : ℕ) : PeerId := u8 c + 256 * u8 c

/-- The whitelist the firmware keeps: `m_whitelist_peers[0 .. m_whitelist_peer_cnt)`. -/
def State.whitelisted (s : State sdk) : List PeerId := s.mWhitelistPeers.take s.mWhitelistPeerCnt

/-- `pm_whitelist_set` and `pm_device_identities_list_set` of the whitelist, with the checks
of their results: the second may be unsupported. -/
def whitelistSet (s : State sdk) : State sdk :=
  let r := sdk.pmCall s.pm (.pmWhitelistSet s.whitelisted)
  let s := appErrorCheck { s with pm := r.2 } r.1
  let r := sdk.pmCall s.pm (.pmDeviceIdentitiesListSet s.whitelisted)
  appErrorHandlerIf (r.1 ≠ .notSupported ∧ r.1 ≠ .success) { s with pm := r.2 } r.1

/-- `advertising_start`. -/
def advertisingStart (s : State sdk) : State sdk :=
  let s := { s with
    mWhitelistPeers :=
      List.replicate sdk.bleGapWhitelistAddrMaxCount (memsetPeerId pmPeerIdInvalid)
    mWhitelistPeerCnt := sdk.bleGapWhitelistAddrMaxCount }
  let list := peerListGet sdk s.pm s.mWhitelistPeers s.mWhitelistPeerCnt
  let s := whitelistSet { s with mWhitelistPeers := list.1, mWhitelistPeerCnt := list.2 }
  linkCallChecked { s with mIsWlChangedAdvertising := false } .bleAdvertisingStart

/-- `on_adv_evt`. -/
def onAdvEvt (s : State sdk) : AdvEvt → State sdk
  | .directed | .fast | .slow | .fastWhitelist | .slowWhitelist => s
  | .idle => linkCallChecked s .sdPowerSystemOff
  | .whitelistRequest =>
    let r := sdk.pmWhitelistGet s.pm sdk.bleGapWhitelistAddrMaxCount sdk.bleGapWhitelistAddrMaxCount
    linkCallChecked (appErrorCheck s r.1) (.bleAdvertisingWhitelistReply r.2.1 r.2.2)
  | .peerAddrRequest =>
    if s.mPeerId ≠ pmPeerIdInvalid then
      let r := sdk.pmPeerDataBondingLoad s.pm s.mPeerId
      if r.1 ≠ .notFound then
        let s := appErrorCheck s r.1
        linkCallChecked { s with replies := s.replies ++ [r.2] } (.bleAdvertisingPeerAddrReply r.2)
      else s
    else s

/-! ### The whitelist rebuilt -/

/-- **The loop writes the enumeration**, from `size` on, and nothing else. -/
theorem peerListLoop_eq (next : PeerId → PeerId) (n : ℕ) (pPeers : List PeerId) (size : ℕ)
    (peerId : PeerId) (hfits : size + n ≤ pPeers.length) :
    peerListLoop next n pPeers size peerId =
      (pPeers.take size ++ enumerate next pmPeerIdInvalid n peerId ++
        pPeers.drop (size + (enumerate next pmPeerIdInvalid n peerId).length),
      size + (enumerate next pmPeerIdInvalid n peerId).length) := by
  induction n generalizing pPeers size peerId with
  | zero => simp [peerListLoop, enumerate]
  | succ n ih =>
    unfold peerListLoop enumerate
    split_ifs with h
    · have htake : (pPeers.set size peerId).take (size + 1) = pPeers.take size ++ [peerId] := by
        rw [List.take_add_one, List.take_set_of_le (Nat.le_refl size),
          List.getElem?_set_self (by omega)]
        rfl
      rw [ih _ _ _ (by rw [List.length_set]; omega), htake, List.drop_set_of_lt (by omega)]
      simp only [List.length_cons, List.append_assoc, List.cons_append, List.nil_append,
        Nat.add_assoc, Nat.add_comm 1]
    · simp

/-- The peers the Peer Manager enumerates, at most `capacity` and at most as many as the
SoftDevice's whitelist has room for. -/
def peerList (sdk : Sdk) (pm : sdk.Pm) (capacity : ℕ) : List PeerId :=
  enumerate (sdk.pmNextPeerIdGet pm) pmPeerIdInvalid
    (min capacity sdk.bleGapWhitelistAddrMaxCount) (sdk.pmNextPeerIdGet pm pmPeerIdInvalid)

theorem length_peerList_le (sdk : Sdk) (pm : sdk.Pm) (capacity : ℕ) :
    (peerList sdk pm capacity).length ≤ min capacity sdk.bleGapWhitelistAddrMaxCount :=
  length_enumerate_le _ _ _ _

/-- `peer_list_get` writes the peers enumerated to the start of the buffer. -/
theorem peerListGet_eq (pm : sdk.Pm) (pPeers : List PeerId) {pSize : ℕ}
    (hfits : pSize ≤ pPeers.length) :
    peerListGet sdk pm pPeers pSize =
      (peerList sdk pm pSize ++ pPeers.drop (peerList sdk pm pSize).length,
        (peerList sdk pm pSize).length) := by
  have hcopy : (if pSize < sdk.bleGapWhitelistAddrMaxCount then pSize
      else sdk.bleGapWhitelistAddrMaxCount) = min pSize sdk.bleGapWhitelistAddrMaxCount := by
    split_ifs <;> omega
  unfold peerListGet
  rw [hcopy, peerListLoop_eq _ _ _ _ _ (by omega)]
  simp [peerList]

/-- The list `advertising_start` rebuilds. -/
def rebuilt (sdk : Sdk) (pm : sdk.Pm) : List PeerId :=
  peerList sdk pm sdk.bleGapWhitelistAddrMaxCount

theorem length_rebuilt_le (sdk : Sdk) (pm : sdk.Pm) :
    (rebuilt sdk pm).length ≤ sdk.bleGapWhitelistAddrMaxCount :=
  (length_peerList_le sdk pm _).trans (Nat.min_le_left _ _)

/-- The state in which `advertising_start` hands the whitelist over. -/
def rebuiltState (s : State sdk) : State sdk :=
  { s with
    mWhitelistPeers := rebuilt sdk s.pm ++
      (List.replicate sdk.bleGapWhitelistAddrMaxCount (memsetPeerId pmPeerIdInvalid)).drop
        (rebuilt sdk s.pm).length
    mWhitelistPeerCnt := (rebuilt sdk s.pm).length }

theorem advertisingStart_eq (s : State sdk) :
    advertisingStart s = linkCallChecked
      { whitelistSet (rebuiltState s) with mIsWlChangedAdvertising := false }
      .bleAdvertisingStart := by
  simp only [advertisingStart]
  rw [peerListGet_eq _ _ (Nat.le_of_eq List.length_replicate.symm)]
  rfl

theorem whitelisted_rebuiltState (s : State sdk) :
    (rebuiltState s).whitelisted = rebuilt sdk s.pm :=
  List.take_left

@[simp] theorem whitelisted_advertisingStart (s : State sdk) :
    (advertisingStart s).whitelisted = rebuilt sdk s.pm := by
  rw [advertisingStart_eq]
  exact whitelisted_rebuiltState s

@[simp] theorem mWhitelistPeerCnt_advertisingStart (s : State sdk) :
    (advertisingStart s).mWhitelistPeerCnt = (rebuilt sdk s.pm).length := by
  rw [advertisingStart_eq]
  rfl

@[simp] theorem length_mWhitelistPeers_advertisingStart (s : State sdk) :
    (advertisingStart s).mWhitelistPeers.length = sdk.bleGapWhitelistAddrMaxCount := by
  have hle := length_rebuilt_le sdk s.pm
  rw [advertisingStart_eq]
  show (rebuilt sdk s.pm ++ List.drop _ _).length = _
  rw [List.length_append, List.length_drop, List.length_replicate]
  omega

/-- The Peer Manager after `advertising_start`: it was given the list twice. -/
theorem pm_advertisingStart (s : State sdk) :
    (advertisingStart s).pm =
      (sdk.pmCall (sdk.pmCall s.pm (.pmWhitelistSet (rebuilt sdk s.pm))).2
        (.pmDeviceIdentitiesListSet (rebuilt sdk s.pm))).2 := by
  rw [advertisingStart_eq, ← whitelisted_rebuiltState s]
  rfl

/-! ### The handler -/

/-- What `on_adv_evt` may change. -/
theorem onAdvEvt_frame (s : State sdk) (e : AdvEvt) :
    ∃ l rs es, onAdvEvt s e = { s with link := l, replies := rs, errors := es } := by
  cases e with
  | directed | fast | slow | fastWhitelist | slowWhitelist => exact ⟨_, _, _, rfl⟩
  | idle | whitelistRequest => exact ⟨_, _, _, rfl⟩
  | peerAddrRequest =>
    simp only [onAdvEvt]
    split_ifs <;> exact ⟨_, _, _, rfl⟩

end SnesController
