import SnesController.WhitelistPath
import SnesController.Library.Roster

/-!
# The whitelist

Two properties of the whitelist over whole runs, of any events and with any answers of the
link.

* The Peer Manager's lists are the whitelist after a disconnect. `on_ble_evt` hands it over
  only if its own file's `m_is_wl_changed` is set, which it never is: the lists agree exactly
  when no peer was added since the last rebuilding (`handsOver_iff`).
* The whitelist is a roster of the bonded peers: each at most once, none that is not bonded,
  and all of them while there is room. A peer that bonds again is appended again, and a peer
  whose bond is deleted stays: the property holds exactly in the runs without these
  (`whitelistOk_iff`).
-/

namespace SnesController

open EventRun Enumeration Roster

variable {sdk : Sdk}

/-! ### The Peer Manager's lists -/

section Synced

variable {whitelist identities : sdk.Pm → List PeerId}

/-- **The lists of the Peer Manager**: a call that sets one succeeds and records it; the other
calls and the events leave it alone. -/
structure ListLaws (sdk : Sdk) (whitelist identities : sdk.Pm → List PeerId) : Prop where
  whitelistSet : ∀ m peers, (sdk.pmCall m (.pmWhitelistSet peers)).1 = .success ∧
    whitelist (sdk.pmCall m (.pmWhitelistSet peers)).2 = peers
  identitiesSet : ∀ m peers, (sdk.pmCall m (.pmDeviceIdentitiesListSet peers)).1 = .success ∧
    identities (sdk.pmCall m (.pmDeviceIdentitiesListSet peers)).2 = peers
  whitelist_calls : ∀ m c, (∀ peers, c ≠ .pmWhitelistSet peers) →
    whitelist (sdk.pmCall m c).2 = whitelist m
  identities_calls : ∀ m c, (∀ peers, c ≠ .pmDeviceIdentitiesListSet peers) →
    identities (sdk.pmCall m c).2 = identities m
  events : ∀ m e, whitelist (sdk.pmDeliver m e) = whitelist m ∧
    identities (sdk.pmDeliver m e) = identities m

theorem ListLaws.keeps (laws : ListLaws sdk whitelist identities) {m m' : sdk.Pm} {e : Event}
    (h : PmKeeps (sdk.pmDeliver m e) m') :
    whitelist m' = whitelist m ∧ identities m' = identities m := by
  obtain ⟨hw, hi⟩ := laws.events m e
  cases h with
  | same => exact ⟨hw, hi⟩
  | @call c hc =>
    refine ⟨(laws.whitelist_calls _ c ?_).trans hw, (laws.identities_calls _ c ?_).trans hi⟩
    · rintro peers rfl
      exact hc trivial
    · rintro peers rfl
      exact hc trivial

/-- The Peer Manager holds the whitelist the firmware keeps. -/
def Synced (whitelist identities : sdk.Pm → List PeerId) (s : State sdk) : Prop :=
  whitelist s.pm = s.whitelisted ∧ identities s.pm = s.whitelisted

instance (s : State sdk) : Decidable (Synced whitelist identities s) :=
  inferInstanceAs (Decidable (_ ∧ _))

/-- A disconnect leaves the Peer Manager with the whitelist. -/
def HandsOver (whitelist identities : sdk.Pm → List PeerId) (s : State sdk) (i : Input) : Prop :=
  i.evt = .ble .disconnected → Synced whitelist identities (step s i)

instance (s : State sdk) (i : Input) : Decidable (HandsOver whitelist identities s i) :=
  inferInstanceAs (Decidable (_ → _))

theorem ListLaws.advertisingStart (laws : ListLaws sdk whitelist identities) (s : State sdk) :
    Synced whitelist identities (advertisingStart s) := by
  unfold Synced
  rw [whitelisted_advertisingStart, pm_advertisingStart]
  refine ⟨?_, (laws.identitiesSet _ _).2⟩
  exact (laws.whitelist_calls _ (.pmDeviceIdentitiesListSet _) nofun).trans
    (laws.whitelistSet _ _).2

/-- Whether a peer was added since the whitelist was last handed over. -/
def addedSince (added : Bool) (s : State sdk) (i : Input) (_ : State sdk) : Bool :=
  if i.evt = .pm .peersDeleteSucceeded then false
  else added ||
    (bondedPeer i.evt).isSome && decide (s.mWhitelistPeerCnt < sdk.bleGapWhitelistAddrMaxCount)

/-- A disconnect finds no peer added. -/
def NoneAdded (c : State sdk × Bool) (i : Input) : Prop := i.evt = .ble .disconnected → c.2 = false

instance (c : State sdk × Bool) (i : Input) : Decidable (NoneAdded c i) :=
  inferInstanceAs (Decidable (_ → _))

/-- The Peer Manager's lists are an initial segment of the whitelist, all of it when no peer
was added since they were set. -/
structure SyncInv (whitelist identities : sdk.Pm → List PeerId) (c : State sdk × Bool) : Prop where
  state : WhitelistState c.1
  lists : identities c.1.pm = whitelist c.1.pm
  whitelisted : ∃ ps, c.1.whitelisted = whitelist c.1.pm ++ ps ∧ (ps = [] ↔ c.2 = false)

theorem SyncInv.of_synced {s : State sdk} (hs : WhitelistState s)
    (h : Synced whitelist identities s) : SyncInv whitelist identities (s, false) :=
  ⟨hs, h.2.trans h.1.symm, [], by simp [h.1], by simp⟩

theorem SyncInv.observed (laws : ListLaws sdk whitelist identities) {c : State sdk × Bool}
    (h : SyncInv whitelist identities c) (i : Input) :
    SyncInv whitelist identities (observed step addedSince c i) := by
  obtain ⟨ps, hps, hnil⟩ := h.whitelisted
  obtain ⟨hstate, heff⟩ := step_listEffect h.state i
  show SyncInv whitelist identities (step c.1 i, addedSince c.2 c.1 i (step c.1 i))
  generalize step c.1 i = s' at hstate heff
  unfold addedSince
  generalize i.evt = e at heff
  cases heff with
  | kept hsame hpm hfull hd =>
    obtain ⟨hw, hi⟩ := laws.keeps hpm
    refine ⟨hstate, by rw [hw, hi]; exact h.lists, ps, by rw [hsame.whitelisted, hw]; exact hps, ?_⟩
    have hadds : ((bondedPeer e).isSome &&
        decide (c.1.mWhitelistPeerCnt < sdk.bleGapWhitelistAddrMaxCount)) = false := by
      cases hb : bondedPeer e with
      | none => rfl
      | some p => simp [hfull p hb]
    rw [if_neg hd, hadds, Bool.or_false]
    exact hnil
  | @added p hlt hadded hpm =>
    obtain ⟨hw, hi⟩ := laws.keeps hpm
    refine ⟨hstate, by rw [hw, hi]; exact h.lists, ps ++ [p], ?_, ?_⟩
    · rw [hadded, hps, hw, List.append_assoc]
    · simp [bondedPeer, hlt]
  | rebuilt heq =>
    subst heq
    exact .of_synced hstate (laws.advertisingStart _)

/-- After a disconnect the lists agree just when no peer was added. -/
theorem SyncInv.synced_iff (laws : ListLaws sdk whitelist identities) {c : State sdk × Bool}
    (h : SyncInv whitelist identities c) {i : Input} (hd : i.evt = .ble .disconnected) :
    Synced whitelist identities (step c.1 i) ↔ c.2 = false := by
  obtain ⟨-, hlists, ps, hps, hnil⟩ := h.observed laws i
  have hkept : addedSince c.2 c.1 i (step c.1 i) = c.2 := by simp [addedSince, hd, bondedPeer]
  change _ ↔ addedSince c.2 c.1 i (step c.1 i) = false at hnil
  rw [hkept] at hnil
  rw [← hnil]
  constructor
  · rintro ⟨hw, -⟩
    exact List.self_eq_append_right.mp (hw.trans hps)
  · rintro rfl
    rw [List.append_nil] at hps
    exact ⟨hps.symm, hlists.trans hps.symm⟩

/-- **The lists agree after a disconnect exactly when no peer was added**: in a run of any kind,
after every disconnect both lists of the Peer Manager are the whitelist, just when at every
disconnect no peer was added since the whitelist was last rebuilt. -/
theorem handsOver_iff (laws : ListLaws sdk whitelist identities) (link : sdk.Link) (pm : sdk.Pm)
    (uart : sdk.Uart) (es : List Input) :
    Along step (HandsOver whitelist identities) (boot link pm uart) es ↔
      Along (observed step addedSince) NoneAdded (boot link pm uart, false) es := by
  have hboot : SyncInv whitelist identities (boot link pm uart, false) :=
    .of_synced (boot_state link pm uart) (laws.advertisingStart _)
  have hobserved : Along (observed step addedSince)
        (fun c i => HandsOver whitelist identities c.1 i) (boot link pm uart, false) es ↔
      Along step (HandsOver whitelist identities) (boot link pm uart) es :=
    along_observed (K := HandsOver whitelist identities)
  rw [← hobserved]
  refine along_iff_of_inv (fun c i h _ _ => h.observed laws i) ?_
    (along_true _ es) hboot
  intro c i h _
  exact ⟨fun hT hd => (h.synced_iff laws hd).mp (hT hd),
    fun hK hd => (h.synced_iff laws hd).mpr (hK hd)⟩

theorem device_listLaws (txBuffers : ℕ) :
    ListLaws (device txBuffers) (deviceWhitelist txBuffers) (deviceIdentities txBuffers) where
  whitelistSet _ _ := ⟨rfl, rfl⟩
  identitiesSet _ _ := ⟨rfl, rfl⟩
  whitelist_calls m c h := by
    cases c with
    | pmWhitelistSet peers => exact absurd rfl (h peers)
    | _ => rfl
  identities_calls m c h := by
    cases c with
    | pmDeviceIdentitiesListSet peers => exact absurd rfl (h peers)
    | _ => rfl
  events m e := by
    cases e with
    | pm e =>
      cases e with
      | connSecSucceeded p procedure =>
        cases procedure with
        | bonding => exact PeerStore.bond_lists m p
        | encryption | pairing => exact ⟨rfl, rfl⟩
      | _ => exact ⟨rfl, rfl⟩
    | _ => exact ⟨rfl, rfl⟩

/-- A peer bonds, all bonds are deleted, and the connection ends. -/
theorem handsOver_deleted :
    Along step (HandsOver (deviceWhitelist 1) (deviceIdentities 1)) (deviceBoot 1)
      [peerBonded 1, peersDeleted, disconnected] :=
  (handsOver_iff (device_listLaws 1) (deviceLink 1) (devicePm 1) (deviceUart 1) _).mpr (by decide)

/-- A peer bonds and the connection ends: the Peer Manager is not told of it. -/
theorem not_handsOver_bonded :
    ¬ Along step (HandsOver (deviceWhitelist 1) (deviceIdentities 1)) (deviceBoot 1)
      [peerBonded 1, disconnected] := by
  decide

end Synced

/-! ### The bonded peers -/

section Bonded

variable {bonded : sdk.Pm → List PeerId}

/-- The peer whose bond an event reports deleted. -/
def deletedPeer : Event → Option PeerId
  | .pm (.peerDeleteSucceeded p) => some p
  | _ => none

/-- **The bonded peers**: each is enumerated once. A successful bonding adds its peer, and the
deletion of a peer removes it. No call changes who is bonded, and no other event does but the
deletion of all, which may leave any. -/
structure BondLaws (sdk : Sdk) (bonded : sdk.Pm → List PeerId) : Prop where
  enumerates : ∀ m, Lists (sdk.pmNextPeerIdGet m) pmPeerIdInvalid pmPeerIdInvalid (bonded m)
  nodup : ∀ m, (bonded m).Nodup
  bonding : ∀ m e, ∀ p ∈ bondedPeer e, p ≠ pmPeerIdInvalid →
    ∀ q, q ∈ bonded (sdk.pmDeliver m e) ↔ q ∈ bonded m ∨ q = p
  deletion : ∀ m e, ∀ p ∈ deletedPeer e,
    ∀ q, q ∈ bonded (sdk.pmDeliver m e) ↔ q ∈ bonded m ∧ q ≠ p
  events : ∀ m e, bondedPeer e = none → deletedPeer e = none → e ≠ .pm .peersDeleteSucceeded →
    ∀ q, q ∈ bonded (sdk.pmDeliver m e) ↔ q ∈ bonded m
  calls : ∀ m c q, q ∈ bonded (sdk.pmCall m c).2 ↔ q ∈ bonded m

/-- A list rebuilt is an initial segment of the bonded peers. -/
theorem BondLaws.rebuilt_eq (laws : BondLaws sdk bonded) (m : sdk.Pm) :
    rebuilt sdk m = (bonded m).take sdk.bleGapWhitelistAddrMaxCount := by
  rw [rebuilt, peerList, Nat.min_self]
  exact (laws.enumerates m).enumerate_eq _

theorem BondLaws.keeps (laws : BondLaws sdk bonded) {m m' : sdk.Pm} (h : PmKeeps m m')
    (q : PeerId) : q ∈ bonded m' ↔ q ∈ bonded m := by
  cases h with
  | same => exact Iff.rfl
  | call _ => exact laws.calls m _ q

/-- **The whitelist is as it should be**: it has room, lists each peer once and none that is not
bonded, and all that are bonded if they have room: as a set, what a rebuilding would list. -/
structure WhitelistOk (bonded : sdk.Pm → List PeerId) (s : State sdk) : Prop where
  cnt_le : s.mWhitelistPeerCnt ≤ sdk.bleGapWhitelistAddrMaxCount
  nodup : s.whitelisted.Nodup
  subset : ∀ p ∈ s.whitelisted, p ∈ bonded s.pm
  complete : (bonded s.pm).length ≤ sdk.bleGapWhitelistAddrMaxCount →
    ∀ p ∈ bonded s.pm, p ∈ s.whitelisted
  rebuilt : (bonded s.pm).length ≤ sdk.bleGapWhitelistAddrMaxCount →
    ∀ p, p ∈ s.whitelisted ↔ p ∈ (advertisingStart s).whitelisted

/-- A peer that bonds while there is room is not listed yet, and neither is one whose bond is
deleted. -/
def Fresh (s : State sdk) (i : Input) : Prop :=
  (∀ p ∈ bondedPeer i.evt, s.mWhitelistPeerCnt < sdk.bleGapWhitelistAddrMaxCount →
    p ∉ s.whitelisted) ∧
  ∀ p ∈ deletedPeer i.evt, p ∉ s.whitelisted

instance (s : State sdk) (i : Input) : Decidable (Fresh s i) :=
  inferInstanceAs (Decidable (_ ∧ _))

/-- An event that reports a bonding names a peer. -/
def ValidBond (_ : State sdk) (i : Input) : Prop := ∀ p ∈ bondedPeer i.evt, p ≠ pmPeerIdInvalid

/-- The whitelist is a roster of the bonded peers. -/
structure BondInv (bonded : sdk.Pm → List PeerId) (s : State sdk) : Prop where
  state : WhitelistState s
  roster : IsRoster sdk.bleGapWhitelistAddrMaxCount (bonded s.pm) s.whitelisted

theorem BondInv.ok (laws : BondLaws sdk bonded) {s : State sdk} (h : BondInv bonded s) :
    WhitelistOk bonded s where
  cnt_le := h.state.cnt_le
  nodup := h.roster.nodup
  subset := h.roster.subset
  complete hle p hp := h.roster.mem_of_length_le hle hp
  rebuilt hle p := by
    rw [whitelisted_advertisingStart, laws.rebuilt_eq, List.take_of_length_le hle]
    exact ⟨h.roster.subset p, h.roster.mem_of_length_le hle⟩

theorem BondLaws.advertisingStart (laws : BondLaws sdk bonded) {s : State sdk}
    (hflag : s.mIsWlChangedConnection = false) : BondInv bonded (advertisingStart s) := by
  refine ⟨advertisingStart_state hflag, ?_⟩
  rw [whitelisted_advertisingStart, laws.rebuilt_eq, pm_advertisingStart]
  exact (isRoster_take (laws.nodup s.pm)).congr fun q =>
    (laws.calls _ _ q).trans (laws.calls _ _ q)

theorem BondInv.step (laws : BondLaws sdk bonded) {s : State sdk} {i : Input}
    (h : BondInv bonded s) (hvalid : ValidBond s i) (hfresh : Fresh s i) :
    BondInv bonded (step s i) := by
  obtain ⟨hstate, heff⟩ := step_listEffect h.state i
  obtain ⟨hbonding, hdeletion⟩ := hfresh
  unfold ValidBond at hvalid
  generalize SnesController.step s i = s' at hstate heff
  generalize i.evt = e at heff hvalid hbonding hdeletion
  cases heff with
  | kept hsame hpm hfull hd =>
    refine ⟨hstate, ?_⟩
    rw [hsame.whitelisted]
    refine IsRoster.congr ?_ (laws.keeps hpm)
    cases hb : bondedPeer e with
    | some p =>
      refine h.roster.full ?_ (laws.bonding s.pm e p hb (hvalid p hb))
      rw [h.state.length_whitelisted]
      exact hfull p hb
    | none =>
      cases hdel : deletedPeer e with
      | some p => exact h.roster.forget (hdeletion p hdel) (laws.deletion s.pm e p hdel)
      | none => exact h.roster.congr (laws.events s.pm e hb hdel hd)
  | @added p hlt hadded hpm =>
    refine ⟨hstate, ?_⟩
    rw [hadded]
    refine IsRoster.congr ?_ (laws.keeps hpm)
    refine h.roster.add ?_ (hbonding p rfl hlt) (laws.bonding s.pm _ p rfl (hvalid p rfl))
    rw [h.state.length_whitelisted]
    exact hlt
  | rebuilt heq =>
    subst heq
    exact laws.advertisingStart h.state.flag

/-- A step leaves the whitelist as it should be just when its peers are new to it. -/
theorem BondInv.ok_iff (laws : BondLaws sdk bonded) {s : State sdk} {i : Input}
    (h : BondInv bonded s) (hvalid : ValidBond s i) :
    WhitelistOk bonded (SnesController.step s i) ↔ Fresh s i := by
  refine ⟨fun hok => ⟨fun p hp hlt hmem => ?_, fun p hp hmem => ?_⟩,
    fun hfresh => (h.step laws hvalid hfresh).ok laws⟩
  · obtain ⟨-, heff⟩ := step_listEffect h.state i
    have hnodup := hok.nodup
    generalize SnesController.step s i = s' at heff hnodup
    generalize i.evt = e at heff hp
    cases heff with
    | kept hsame hpm hfull hd => exact absurd hlt (Nat.not_lt_of_le (hfull p hp))
    | added hlt hadded hpm =>
      cases hp
      rw [hadded] at hnodup
      exact (List.nodup_append.mp hnodup).2.2 p hmem p (List.mem_singleton_self p) rfl
    | rebuilt heq => cases hp
  · obtain ⟨-, heff⟩ := step_listEffect h.state i
    have hbonded := hok.subset p
    generalize SnesController.step s i = s' at heff hbonded
    generalize i.evt = e at heff hp
    cases heff with
    | kept hsame hpm hfull hd =>
      rw [hsame.whitelisted, laws.keeps hpm, laws.deletion s.pm e p hp] at hbonded
      exact (hbonded hmem).2 rfl
    | added hlt hadded hpm => cases hp
    | rebuilt heq => cases hp

/-- **The whitelist is as it should be exactly when its peers are new to it**: in every state of a
run of any kind, just when at every step a peer that bonds while there is room, and a peer
whose bond is deleted, is not listed. -/
theorem whitelistOk_iff (laws : BondLaws sdk bonded) (link : sdk.Link) (pm : sdk.Pm)
    (uart : sdk.Uart) {es : List Input}
    (hvalid : ∀ i ∈ es, ∀ p ∈ bondedPeer i.evt, p ≠ pmPeerIdInvalid) :
    (∀ p, p <+: es → WhitelistOk bonded (run step (boot link pm uart) p)) ↔
      Along step Fresh (boot link pm uart) es := by
  have hboot : BondInv bonded (boot link pm uart) := laws.advertisingStart rfl
  exact states_iff_of_inv (I := BondInv bonded) (A := ValidBond)
    (fun s i h hv hK => h.step laws hv hK) (fun s i h hv => h.ok_iff laws hv)
    (along_inputs.mpr hvalid) hboot (hboot.ok laws)

theorem device_bondLaws (txBuffers : ℕ) :
    BondLaws (device txBuffers) (deviceBonded txBuffers) where
  enumerates m := lists_succIn (PeerStore.nodup m) (PeerStore.valid m)
  nodup m := PeerStore.nodup m
  bonding m e p hp hvalid q := by
    rw [bondedPeer_eq hp]
    exact PeerStore.mem_bond m hvalid q
  deletion m e p hp q := by
    cases e with
    | pm e =>
      cases e with
      | peerDeleteSucceeded p' =>
        cases hp
        exact PeerStore.mem_delete m p q
      | _ => cases hp
    | _ => cases hp
  events m e hb hdel hd q := by
    cases e with
    | pm e =>
      cases e with
      | connSecSucceeded p procedure =>
        cases procedure with
        | bonding => cases hb
        | encryption | pairing => exact Iff.rfl
      | peerDeleteSucceeded p => cases hdel
      | peersDeleteSucceeded => exact absurd rfl hd
      | _ => exact Iff.rfl
    | _ => exact Iff.rfl
  calls m c q := by cases c <;> exact Iff.rfl

/-- Two peers bond. -/
theorem whitelistOk_twoBonds :
    WhitelistOk (deviceBonded 1) (run step (deviceBoot 1) [peerBonded 1, peerBonded 2]) :=
  (whitelistOk_iff (device_bondLaws 1) (deviceLink 1) (devicePm 1) (deviceUart 1)
    (by decide)).mpr (by decide) _ List.prefix_rfl

/-- A peer bonds, loses its key and bonds again: it is listed twice. -/
theorem listed_twice :
    ¬ ∀ p, p <+: [peerBonded 1, keyMissing 0, peerBonded 1] →
      WhitelistOk (deviceBonded 1) (run step (deviceBoot 1) p) := by
  intro h
  exact absurd (h _ List.prefix_rfl).nodup (by decide)

end Bonded

end SnesController
