import SnesController.Firmware

/-!
# The whitelist's path

What one event does to the whitelist and to the Peer Manager's state. `step_listEffect` says
that a bonding event adds its peer where there is room, that `PM_EVT_PEERS_DELETE_SUCCEEDED`
has the list rebuilt, and that every other event leaves it alone. None of them hands the list
to the Peer Manager but the rebuilding: the `m_is_wl_changed` that `on_ble_evt` reads is
`my_ble_connection.c`'s own, which nothing sets (`WhitelistState.flag`).
-/

namespace SnesController

open EventRun

variable {sdk : Sdk}

/-- The peer an event reports a successful bonding with. -/
def bondedPeer : Event → Option PeerId
  | .pm (.connSecSucceeded p .bonding) => some p
  | _ => none

theorem bondedPeer_eq {e : Event} {p : PeerId} (h : bondedPeer e = some p) :
    e = .pm (.connSecSucceeded p .bonding) := by
  cases e with
  | pm e =>
    cases e with
    | connSecSucceeded q procedure =>
      cases procedure with
      | bonding => rw [Option.some.inj h]
      | encryption | pairing => cases h
    | _ => cases h
  | _ => cases h

/-- The calls that hand a list of peers to the Peer Manager. -/
def PmCall.SetsList : PmCall → Prop
  | .pmWhitelistSet _ | .pmDeviceIdentitiesListSet _ => True
  | _ => False

/-- The Peer Manager is called at most once, and handed no list. -/
inductive PmKeeps (m : sdk.Pm) : sdk.Pm → Prop where
  | same : PmKeeps m m
  | call {c : PmCall} : ¬ c.SetsList → PmKeeps m (sdk.pmCall m c).2

/-- The counter is within the list, and the flag that `on_ble_evt` reads is not set. -/
structure WhitelistState (s : State sdk) : Prop where
  flag : s.mIsWlChangedConnection = false
  length : s.mWhitelistPeers.length = sdk.bleGapWhitelistAddrMaxCount
  cnt_le : s.mWhitelistPeerCnt ≤ sdk.bleGapWhitelistAddrMaxCount

theorem WhitelistState.length_whitelisted {s : State sdk} (h : WhitelistState s) :
    s.whitelisted.length = s.mWhitelistPeerCnt := by
  rw [State.whitelisted, List.length_take, h.length]
  exact Nat.min_eq_left h.cnt_le

/-- The list is left alone. -/
structure ListSame (s s' : State sdk) : Prop where
  peers : s'.mWhitelistPeers = s.mWhitelistPeers
  cnt : s'.mWhitelistPeerCnt = s.mWhitelistPeerCnt
  flag : s'.mIsWlChangedConnection = s.mIsWlChangedConnection

theorem ListSame.whitelisted {s s' : State sdk} (h : ListSame s s') :
    s'.whitelisted = s.whitelisted := by
  rw [State.whitelisted, h.peers, h.cnt]
  rfl

theorem ListSame.state {s s' : State sdk} (h : ListSame s s') (hs : WhitelistState s) :
    WhitelistState s' :=
  ⟨h.flag.trans hs.flag, (congrArg List.length h.peers).trans hs.length,
    h.cnt.trans_le hs.cnt_le⟩

/-- **What an event does to the whitelist.** -/
inductive ListEffect (s s' : State sdk) : Event → Prop where
  /-- The list is left alone; a bonding event finds it full. -/
  | kept {e : Event} : ListSame s s' → PmKeeps (sdk.pmDeliver s.pm e) s'.pm →
      (∀ p ∈ bondedPeer e, sdk.bleGapWhitelistAddrMaxCount ≤ s.mWhitelistPeerCnt) →
      e ≠ .pm .peersDeleteSucceeded → ListEffect s s' e
  /-- A bonding event adds its peer. -/
  | added {p : PeerId} : s.mWhitelistPeerCnt < sdk.bleGapWhitelistAddrMaxCount →
      s'.whitelisted = s.whitelisted ++ [p] →
      PmKeeps (sdk.pmDeliver s.pm (.pm (.connSecSucceeded p .bonding))) s'.pm →
      ListEffect s s' (.pm (.connSecSucceeded p .bonding))
  /-- The list is rebuilt and handed over. -/
  | rebuilt : s' = advertisingStart (deliver s (.pm .peersDeleteSucceeded)) →
      ListEffect s s' (.pm .peersDeleteSucceeded)

theorem advertisingStart_state {s : State sdk} (hflag : s.mIsWlChangedConnection = false) :
    WhitelistState (advertisingStart s) := by
  refine ⟨?_, length_mWhitelistPeers_advertisingStart s, ?_⟩
  · rw [advertisingStart_eq]
    exact hflag
  · rw [mWhitelistPeerCnt_advertisingStart]
    exact length_rebuilt_le sdk s.pm

theorem boot_state (link : sdk.Link) (pm : sdk.Pm) (uart : sdk.Uart) :
    WhitelistState (boot link pm uart) :=
  advertisingStart_state rfl

/-! ### The handlers -/

/-- The peer added stands after the others. -/
theorem whitelistAppend_whitelisted {s : State sdk} (h : WhitelistState s)
    (hlt : s.mWhitelistPeerCnt < sdk.bleGapWhitelistAddrMaxCount) :
    WhitelistState (whitelistAppend s) ∧
      (whitelistAppend s).whitelisted = s.whitelisted ++ [s.mPeerId] := by
  have hroom : s.mWhitelistPeerCnt < s.mWhitelistPeers.length := hlt.trans_eq h.length.symm
  unfold whitelistAppend
  rw [if_pos hlt]
  refine ⟨⟨h.flag, List.length_set.trans h.length, hlt⟩, ?_⟩
  show (s.mWhitelistPeers.set s.mWhitelistPeerCnt s.mPeerId).take (s.mWhitelistPeerCnt + 1) = _
  rw [List.take_add_one, List.take_set_of_le (Nat.le_refl _), List.getElem?_set_self hroom]
  rfl

theorem whitelistAppend_full {s : State sdk}
    (hge : sdk.bleGapWhitelistAddrMaxCount ≤ s.mWhitelistPeerCnt) : whitelistAppend s = s :=
  if_neg (Nat.not_lt_of_le hge)

theorem pm_whitelistAppend (s : State sdk) : (whitelistAppend s).pm = s.pm := by
  unfold whitelistAppend
  split_ifs <;> rfl

/-- A bonding event: the peer is ranked, and added where there is room. -/
theorem step_bonded (s : State sdk) (p : PeerId) (u : ErrCode) :
    step s ⟨.pm (.connSecSucceeded p .bonding), u⟩ =
      whitelistAppend (peerConnected (deliver s (.pm (.connSecSucceeded p .bonding))) p) := rfl

theorem bonded_listEffect {s : State sdk} (h : WhitelistState s) (p : PeerId) (u : ErrCode) :
    WhitelistState (step s ⟨.pm (.connSecSucceeded p .bonding), u⟩) ∧
      ListEffect s (step s ⟨.pm (.connSecSucceeded p .bonding), u⟩)
        (.pm (.connSecSucceeded p .bonding)) := by
  have hstate : WhitelistState (peerConnected (deliver s (.pm (.connSecSucceeded p .bonding))) p) :=
    ⟨h.flag, h.length, h.cnt_le⟩
  have hpm : PmKeeps (sdk.pmDeliver s.pm (.pm (.connSecSucceeded p .bonding)))
      (peerConnected (deliver s (.pm (.connSecSucceeded p .bonding))) p).pm :=
    .call (c := .pmPeerRankHighest p) id
  rw [step_bonded]
  rcases Nat.lt_or_ge s.mWhitelistPeerCnt sdk.bleGapWhitelistAddrMaxCount with hlt | hge
  · obtain ⟨hstate', hadded⟩ := whitelistAppend_whitelisted hstate hlt
    refine ⟨hstate', .added hlt hadded ?_⟩
    rw [pm_whitelistAppend]
    exact hpm
  · rw [whitelistAppend_full
      (s := peerConnected (deliver s (.pm (.connSecSucceeded p .bonding))) p) hge]
    exact ⟨hstate, .kept ⟨rfl, rfl, rfl⟩ hpm (fun _ _ => hge) nofun⟩

/-- The other events of the Peer Manager, but for the deletion of all peers. -/
theorem pmEvt_listSame (s : State sdk) {e : PmEvt} (hb : bondedPeer (.pm e) = none)
    (hd : e ≠ .peersDeleteSucceeded) :
    ListSame s (pmEvtHandler s e) ∧ PmKeeps s.pm (pmEvtHandler s e).pm := by
  cases e with
  | bondedPeerConnected p => exact ⟨⟨rfl, rfl, rfl⟩, .call (c := .pmPeerRankHighest p) id⟩
  | connSecSucceeded p procedure =>
    cases procedure with
    | bonding => cases hb
    | encryption | pairing => exact ⟨⟨rfl, rfl, rfl⟩, .call (c := .pmPeerRankHighest p) id⟩
  | connSecFailed c missing =>
    cases missing with
    | true => exact ⟨⟨rfl, rfl, rfl⟩, .call (c := .pmConnSecure c true) id⟩
    | false => exact ⟨⟨rfl, rfl, rfl⟩, .same⟩
  | connSecConfigReq c => exact ⟨⟨rfl, rfl, rfl⟩, .call (c := .pmConnSecConfigReply c false) id⟩
  | storageFull => exact ⟨⟨rfl, rfl, rfl⟩, .call (c := .fdsGc) id⟩
  | localDbCacheApplyFailed =>
    exact ⟨⟨rfl, rfl, rfl⟩, .call (c := .pmLocalDatabaseHasChanged) id⟩
  | peersDeleteSucceeded => exact absurd rfl hd
  | _ => exact ⟨⟨rfl, rfl, rfl⟩, .same⟩

/-- The events of the other sources leave the Peer Manager to itself. -/
theorem notPm_listSame {s : State sdk} (hflag : s.mIsWlChangedConnection = false) {i : Input}
    (h : ∀ e, i.evt ≠ .pm e) :
    ListSame s (step s i) ∧ (step s i).pm = sdk.pmDeliver s.pm i.evt := by
  have heff := step_handled s i
  generalize step s i = s' at heff ⊢
  generalize i.evt = e at h heff ⊢
  cases heff with
  | pm e => exact absurd rfl (h e)
  | ble e l rs b c pm wc es hkept =>
    obtain ⟨hpm, hwc⟩ := hkept hflag
    exact ⟨⟨rfl, rfl, hwc.trans hflag.symm⟩, hpm⟩
  | _ => exact ⟨⟨rfl, rfl, rfl⟩, rfl⟩

/-- **One event on the whitelist.** -/
theorem step_listEffect {s : State sdk} (h : WhitelistState s) (i : Input) :
    WhitelistState (step s i) ∧ ListEffect s (step s i) i.evt := by
  by_cases hpm : ∀ e, i.evt ≠ .pm e
  · obtain ⟨hsame, hm⟩ := notPm_listSame h.flag hpm
    exact ⟨hsame.state h, .kept hsame (hm ▸ .same)
      (fun p hp => absurd (bondedPeer_eq hp) (hpm _)) (hpm _)⟩
  obtain ⟨e, u⟩ := i
  obtain ⟨e, rfl⟩ := not_forall_not.mp hpm
  by_cases hd : e = .peersDeleteSucceeded
  · subst hd
    exact ⟨advertisingStart_state h.flag, .rebuilt rfl⟩
  cases hb : bondedPeer (.pm e) with
  | none =>
    obtain ⟨hsame, hm⟩ := pmEvt_listSame (deliver s (.pm e)) hb hd
    have hs : WhitelistState (deliver s (.pm e)) := ⟨h.flag, h.length, h.cnt_le⟩
    exact ⟨hsame.state hs, .kept ⟨hsame.peers, hsame.cnt, hsame.flag⟩ hm
      (by rw [hb]; nofun) (fun heq => hd (Event.pm.inj heq))⟩
  | some p =>
    rw [Event.pm.inj (bondedPeer_eq hb)]
    exact bonded_listEffect h p u

end SnesController
