import SnesController.Firmware

/-!
# The whitelist rebuilt

What `peer_list_get` and `advertising_start` leave, whatever function enumerates the peers:
it need not come to an end, and the globals may hold anything before. The loop ends with the
list or with the room for it, whichever comes first, and the whitelist is an initial segment
of the enumeration (`rebuild_firstPeers`).

`peerCount` is how many peers there are, perhaps infinitely many, and `firstPeers` the first
`n` of them.
-/

namespace SnesController

open Enumeration

variable {sdk : Sdk}

/-- How many peers the Peer Manager enumerates. -/
noncomputable def peerCount (sdk : Sdk) (pm : sdk.Pm) : ℕ∞ :=
  total (sdk.pmNextPeerIdGet pm) pmPeerIdInvalid (sdk.pmNextPeerIdGet pm pmPeerIdInvalid)

/-- The first `n` of them. -/
def firstPeers (sdk : Sdk) (pm : sdk.Pm) (n : ℕ) : List PeerId :=
  List.iterate (sdk.pmNextPeerIdGet pm) (sdk.pmNextPeerIdGet pm pmPeerIdInvalid) n

/-- The peers listed are the first ones. -/
theorem peerList_eq_firstPeers (pm : sdk.Pm) (capacity : ℕ) :
    peerList sdk pm capacity = firstPeers sdk pm (peerList sdk pm capacity).length :=
  enumerate_eq_iterate _ _

/-- As many are listed as there are, up to the capacity and the room in the SoftDevice. -/
theorem length_peerList (pm : sdk.Pm) (capacity : ℕ) :
    ((peerList sdk pm capacity).length : ℕ∞) =
      min ((min capacity sdk.bleGapWhitelistAddrMaxCount : ℕ) : ℕ∞) (peerCount sdk pm) := by
  rw [peerList, length_enumerate]
  rfl

/-- **What `peer_list_get` leaves** in a buffer, `written` and `*p_size` as it returns: the
first peers at its start, as many as `*p_size` says, and every other slot as it was. -/
structure FirstPeersWritten (sdk : Sdk) (pm : sdk.Pm) (pPeers : List PeerId) (pSize : ℕ)
    (written : List PeerId × ℕ) : Prop where
  size : (written.2 : ℕ∞) =
    min ((min pSize sdk.bleGapWhitelistAddrMaxCount : ℕ) : ℕ∞) (peerCount sdk pm)
  length : written.1.length = pPeers.length
  peers : written.1.take written.2 = firstPeers sdk pm written.2
  others : written.1.drop written.2 = pPeers.drop written.2

theorem peerListGet_written (pm : sdk.Pm) (pPeers : List PeerId) {pSize : ℕ}
    (hfits : pSize ≤ pPeers.length) :
    FirstPeersWritten sdk pm pPeers pSize (peerListGet sdk pm pPeers pSize) := by
  have hle := length_peerList_le sdk pm pSize
  rw [peerListGet_eq pm pPeers hfits]
  refine ⟨length_peerList pm pSize, ?_, ?_, List.drop_left⟩
  · rw [List.length_append, List.length_drop]
    omega
  · rw [List.take_left]
    exact peerList_eq_firstPeers pm pSize

/-- **What `advertising_start` leaves**: the whitelist is `peers` and after it only invalid ids,
the count is that of `peers`, and the Peer Manager was given `peers` as the whitelist and as the
device identities. -/
structure Rebuilt (s s' : State sdk) (peers : List PeerId) : Prop where
  list : s'.mWhitelistPeers =
    peers ++ List.replicate (sdk.bleGapWhitelistAddrMaxCount - peers.length) pmPeerIdInvalid
  count : s'.mWhitelistPeerCnt = peers.length
  given : s'.pm = (sdk.pmCall (sdk.pmCall s.pm (.pmWhitelistSet peers)).2
    (.pmDeviceIdentitiesListSet peers)).2

theorem mWhitelistPeers_advertisingStart (s : State sdk) :
    (advertisingStart s).mWhitelistPeers = rebuilt sdk s.pm ++
      List.replicate (sdk.bleGapWhitelistAddrMaxCount - (rebuilt sdk s.pm).length)
        pmPeerIdInvalid := by
  rw [advertisingStart_eq, ← List.drop_replicate]
  rfl

theorem advertisingStart_rebuilt (s : State sdk) :
    Rebuilt s (advertisingStart s) (rebuilt sdk s.pm) :=
  ⟨mWhitelistPeers_advertisingStart s, mWhitelistPeerCnt_advertisingStart s,
    pm_advertisingStart s⟩

/-- **The whitelist is the first peers, up to its capacity**: whatever the enumeration,
`peer_list_get` writes the first `min (*p_size) BLE_GAP_WHITELIST_ADDR_MAX_COUNT` of the peers,
or all when there are fewer, and no other slot; and from any globals `advertising_start` makes
the whitelist of the first `BLE_GAP_WHITELIST_ADDR_MAX_COUNT` and hands it over. -/
theorem rebuild_firstPeers (pm : sdk.Pm) (pPeers : List PeerId) {pSize : ℕ}
    (hfits : pSize ≤ pPeers.length) (s : State sdk) :
    FirstPeersWritten sdk pm pPeers pSize (peerListGet sdk pm pPeers pSize) ∧
      ∃ n : ℕ, (n : ℕ∞) = min (sdk.bleGapWhitelistAddrMaxCount : ℕ∞) (peerCount sdk s.pm) ∧
        Rebuilt s (advertisingStart s) (firstPeers sdk s.pm n) := by
  refine ⟨peerListGet_written pm pPeers hfits, (rebuilt sdk s.pm).length, ?_, ?_⟩
  · rw [rebuilt, length_peerList, min_self]
  · rw [rebuilt, ← peerList_eq_firstPeers]
    exact advertisingStart_rebuilt s

/-- Three peers are bonded: there is room for two of them. -/
theorem rebuild_firstPeers_two :
    FirstPeersWritten (device 3) (⟨[5, 7, 9], [], [], by decide, by decide⟩ : PeerStore)
        [1, 1, 1] 2
        (peerListGet (device 3) (⟨[5, 7, 9], [], [], by decide, by decide⟩ : PeerStore)
          [1, 1, 1] 2) ∧
      ∃ n : ℕ, (n : ℕ∞) = min (8 : ℕ∞) (peerCount (device 3) (deviceReset 3).pm) ∧
        Rebuilt (deviceReset 3) (advertisingStart (deviceReset 3))
          (firstPeers (device 3) (deviceReset 3).pm n) :=
  rebuild_firstPeers _ [1, 1, 1] (by decide) (deviceReset 3)

example : peerListGet (device 3) (⟨[5, 7, 9], [], [], by decide, by decide⟩ : PeerStore)
    [1, 1, 1] 2 = ([5, 7, 1], 2) := by decide

end SnesController
