import SnesController.Library.Enumeration

/-!
# What the firmware runs on

The nRF5 SDK and the SoftDevice are not part of the sources. `Sdk` stands for them: it is
any structure of functions that answer the firmware's calls and change their own state,
in three parts that do not share state, as the SDK's modules do not: the *link* (the
SoftDevice with the HID, battery and advertising services), the Peer Manager, and the
UART driver. Each part also sees every event just before the firmware's handler does
(`linkDeliver`, `pmDeliver`, `uartDeliver`): that is where the driver ends a receive, the
SoftDevice retires notifications and the Peer Manager stores a bond.

What the SDK promises is stated where it is used, as structures of hypotheses.

The events are the ones the firmware registers handlers for. A handler runs to completion
before the next event is handled.
-/

namespace SnesController

/-- The result codes the firmware compares with, and any other. -/
inductive ErrCode where
  | success
  | noMem
  | notFound
  | notSupported
  | invalidState
  | busy
  | noTxPackets
  | gattsSysAttrMissing
  | fdsBusy
  | fdsNoSpaceInQueues
  | other (code : ℕ)
  deriving DecidableEq, Repr

/-- Pointers to key patterns, `uint16_t *`. -/
inductive PatternPtr where
  | null
  | keypadState
  /-- Any other object, by its address. -/
  | obj (address : ℕ)
  deriving DecidableEq, Repr

/-- Pointers to HID service instances, `ble_hids_t *`. -/
inductive HidsPtr where
  | null
  | mHids
  | obj (address : ℕ)
  deriving DecidableEq, Repr

/-- Pointers to byte buffers, `uint8_t *`. -/
inductive BytesPtr where
  | rxBuffer
  | obj (address : ℕ)
  deriving DecidableEq, Repr

/-- `pm_peer_id_t`. -/
abbrev PeerId := ℕ

/-- `PM_PEER_ID_INVALID`. -/
def pmPeerIdInvalid : PeerId := 0xFFFF

/-- `BLE_CONN_HANDLE_INVALID`. -/
def bleConnHandleInvalid : ℕ := 0xFFFF

/-! ### Events -/

/-- The events of the UART driver; `RX_DONE` with the two bytes received. -/
inductive UartEvt where
  | rxDone (b₀ b₁ : UInt8)
  | error
  | txDone
  deriving DecidableEq, Repr

/-- The `type` of an authorize request. -/
inductive AuthorizeType where
  | invalid
  | read
  | write
  deriving DecidableEq, Repr

/-- The `op` of an authorize request for a write. -/
inductive WriteOp where
  | prepWriteReq
  | execWriteReqNow
  | execWriteReqCancel
  | other
  deriving DecidableEq, Repr

/-- The events of the BLE stack. -/
inductive BleEvt where
  | connected (connHandle : ℕ)
  /-- `BLE_EVT_TX_COMPLETE`, with how many notifications went out. -/
  | txComplete (count : ℕ)
  | disconnected
  | gattcTimeout (connHandle : ℕ)
  | gattsTimeout (connHandle : ℕ)
  | userMemRequest
  | rwAuthorizeRequest (connHandle : ℕ) (type : AuthorizeType) (op : WriteOp)
  | other (evtId : ℕ)
  deriving DecidableEq, Repr

/-- The events of the HID service. -/
inductive HidsEvt where
  | bootModeEntered
  | reportModeEntered
  | repCharWrite
  | notifEnabled
  | other
  deriving DecidableEq, Repr

/-- The procedure by which a link was secured. -/
inductive SecProcedure where
  | encryption
  | bonding
  | pairing
  deriving DecidableEq, Repr

/-- The events of the Peer Manager. -/
inductive PmEvt where
  | bondedPeerConnected (peerId : PeerId)
  | connSecStart
  | connSecSucceeded (peerId : PeerId) (procedure : SecProcedure)
  /-- `PM_EVT_CONN_SEC_FAILED`, and whether the error is `PIN_OR_KEY_MISSING`. -/
  | connSecFailed (connHandle : ℕ) (pinOrKeyMissing : Bool)
  | connSecConfigReq (connHandle : ℕ)
  | storageFull
  | errorUnexpected (error : ErrCode)
  | peerDataUpdateSucceeded
  | peerDataUpdateFailed
  | peerDeleteSucceeded (peerId : PeerId)
  | peerDeleteFailed (error : ErrCode)
  | peersDeleteSucceeded
  | peersDeleteFailed (error : ErrCode)
  | localDbCacheApplied
  | localDbCacheApplyFailed
  | serviceChangedIndSent
  | serviceChangedIndConfirmed
  deriving DecidableEq, Repr

/-- The events of the advertising module. -/
inductive AdvEvt where
  | directed
  | fast
  | slow
  | fastWhitelist
  | slowWhitelist
  | idle
  | whitelistRequest
  | peerAddrRequest
  deriving DecidableEq, Repr

/-- The events of the ADC driver; `DONE` with the samples. -/
inductive AdcEvt where
  | done (samples : List ℕ)
  | other
  deriving DecidableEq, Repr

/-- The events the firmware handles. -/
inductive Event where
  | uart (e : UartEvt)
  | ble (e : BleEvt)
  | hids (e : HidsEvt)
  | pm (e : PmEvt)
  | adv (e : AdvEvt)
  | adc (e : AdcEvt)
  deriving DecidableEq, Repr

/-! ### Calls -/

/-- The firmware's calls of the SoftDevice, its services and the advertising module. -/
inductive LinkCall where
  | bleHidsInpRepSend (pHids : HidsPtr) (repIndex len : ℕ) (data : List UInt8)
  | bleBasBatteryLevelUpdate (level : ℕ)
  | sdBleGapDisconnect (connHandle : ℕ)
  | sdBleUserMemReply (connHandle : ℕ)
  | sdBleGattsRwAuthorizeReply (connHandle : ℕ) (type : AuthorizeType) (gattStatus : ℕ)
  | bleAdvertisingStart
  | bleAdvertisingWhitelistReply (addrs irks : List ℕ)
  | bleAdvertisingPeerAddrReply (addr : ℕ)
  | sdPowerSystemOff
  | sdClockHfclkRelease
  deriving DecidableEq, Repr

/-- The firmware's calls of the Peer Manager that may change it, and of the flash storage
under it. -/
inductive PmCall where
  | pmWhitelistSet (peers : List PeerId)
  | pmDeviceIdentitiesListSet (peers : List PeerId)
  | pmPeerRankHighest (peerId : PeerId)
  | pmConnSecure (connHandle : ℕ) (forceRepairing : Bool)
  | pmConnSecConfigReply (connHandle : ℕ) (allowRepairing : Bool)
  | pmLocalDatabaseHasChanged
  | fdsGc
  deriving DecidableEq, Repr

/-- A receive: where to, and how many bytes. -/
structure RxRequest where
  buffer : BytesPtr
  length : ℕ
  deriving DecidableEq, Repr

/-- The firmware's calls of the UART driver. -/
inductive UartCall where
  | nrfDrvUartInit (baudrate pselrxd : ℕ)
  | nrfDrvUartRxEnable
  | nrfDrvUartRx (rx : RxRequest)
  deriving DecidableEq, Repr

/-- **The SDK**: its states and how it answers. -/
structure Sdk where
  /-- The state of the SoftDevice, its services and the advertising module. -/
  Link : Type
  /-- The state of the Peer Manager. -/
  Pm : Type
  /-- The state of the UART driver. -/
  Uart : Type
  linkCall : Link → LinkCall → ErrCode × Link
  linkDeliver : Link → Event → Link
  pmCall : Pm → PmCall → ErrCode × Pm
  pmDeliver : Pm → Event → Pm
  /-- `pm_next_peer_id_get`: the stored peer after the given one. -/
  pmNextPeerIdGet : Pm → PeerId → PeerId
  /-- `pm_peer_data_bonding_load`: the result, and the identity address stored. -/
  pmPeerDataBondingLoad : Pm → PeerId → ErrCode × ℕ
  /-- `pm_whitelist_get`: the result, the addresses and the identity keys, at most as many
  of each as there is room for. -/
  pmWhitelistGet : Pm → (addrCnt irkCnt : ℕ) → ErrCode × List ℕ × List ℕ
  uartCall : Uart → UartCall → ErrCode × Uart
  uartDeliver : Uart → Event → Uart
  /-- `battery_level_in_percent`, of a voltage in millivolts. -/
  batteryLevelInPercent : ℕ → ℕ
  /-- The bytes of memory, but for the globals the model keeps itself. -/
  memory : ℕ → UInt8
  /-- `BLE_GAP_WHITELIST_ADDR_MAX_COUNT`. -/
  bleGapWhitelistAddrMaxCount : ℕ
  /-- `BLE_GATT_STATUS_ATTERR_APP_BEGIN`. -/
  bleGattStatusAtterrAppBegin : ℕ

/-! ### An SDK to run the firmware on -/

/-- A Peer Manager's store: the bonded peers in the order they are enumerated, each once and
with a valid id, and the two lists it holds for the SoftDevice. -/
structure PeerStore where
  bonded : List PeerId
  whitelist : List PeerId
  identities : List PeerId
  nodup : bonded.Nodup
  valid : pmPeerIdInvalid ∉ bonded

/-- A peer is bonded, if its id is valid. -/
def PeerStore.bond (m : PeerStore) (p : PeerId) : PeerStore :=
  if h : p ≠ pmPeerIdInvalid ∧ p ∉ m.bonded then
    { m with
      bonded := p :: m.bonded
      nodup := List.nodup_cons.mpr ⟨h.2, m.nodup⟩
      valid := List.not_mem_cons_of_ne_of_not_mem h.1.symm m.valid }
  else m

/-- The bond with a peer is deleted. -/
def PeerStore.delete (m : PeerStore) (p : PeerId) : PeerStore :=
  { m with
    bonded := m.bonded.filter (· ≠ p)
    nodup := m.nodup.filter _
    valid := fun h => m.valid (List.mem_filter.mp h).1 }

/-- The store when an event is delivered. -/
def PeerStore.deliver (m : PeerStore) : Event → PeerStore
  | .pm (.connSecSucceeded p .bonding) => m.bond p
  | .pm (.peerDeleteSucceeded p) => m.delete p
  | .pm .peersDeleteSucceeded =>
    { m with bonded := [], nodup := List.nodup_nil, valid := List.not_mem_nil }
  | _ => m

theorem PeerStore.mem_bond (m : PeerStore) {p : PeerId} (hp : p ≠ pmPeerIdInvalid) (q : PeerId) :
    q ∈ (m.bond p).bonded ↔ q ∈ m.bonded ∨ q = p := by
  unfold PeerStore.bond
  split_ifs with h
  · rw [List.mem_cons, or_comm]
  · have hmem : p ∈ m.bonded := by
      by_contra hnot
      exact h ⟨hp, hnot⟩
    refine ⟨.inl, ?_⟩
    rintro (hq | rfl)
    · exact hq
    · exact hmem

theorem PeerStore.bond_lists (m : PeerStore) (p : PeerId) :
    (m.bond p).whitelist = m.whitelist ∧ (m.bond p).identities = m.identities := by
  unfold PeerStore.bond
  split_ifs <;> exact ⟨rfl, rfl⟩

theorem PeerStore.mem_delete (m : PeerStore) (p q : PeerId) :
    q ∈ (m.delete p).bonded ↔ q ∈ m.bonded ∧ q ≠ p := by
  simp [PeerStore.delete]

/-- The UART driver when an event is delivered: a receive ends. -/
def uartEnds (rx : Option RxRequest) : Event → Option RxRequest
  | .uart (.rxDone _ _) | .uart .error => none
  | _ => rx

/-- The notifications outstanding when an event is delivered. -/
def txRetires (outstanding : ℕ) : Event → ℕ
  | .ble (.txComplete count) => outstanding - count
  | .ble .disconnected => 0
  | _ => outstanding

/-- **An SDK with `txBuffers` TX buffers**: a notification takes one until it is completed, and
finds no room when all are taken; the Peer Manager keeps a store; the UART driver keeps one
receive; the memory holds `C0 07 00 00 …`. -/
def device (txBuffers : ℕ) : Sdk where
  Link := ℕ
  Pm := PeerStore
  Uart := Option RxRequest
  linkCall outstanding
    | .bleHidsInpRepSend _ _ _ _ | .bleBasBatteryLevelUpdate _ =>
      if outstanding < txBuffers then (.success, outstanding + 1) else (.noTxPackets, outstanding)
    | _ => (.success, outstanding)
  linkDeliver := txRetires
  pmCall m
    | .pmWhitelistSet peers => (.success, { m with whitelist := peers })
    | .pmDeviceIdentitiesListSet peers => (.success, { m with identities := peers })
    | _ => (.success, m)
  pmDeliver := PeerStore.deliver
  pmNextPeerIdGet m := Enumeration.succIn m.bonded pmPeerIdInvalid
  pmPeerDataBondingLoad m p := if p ∈ m.bonded then (.success, p) else (.notFound, 0)
  pmWhitelistGet m addrCnt irkCnt := (.success, m.whitelist.take addrCnt, m.identities.take irkCnt)
  uartCall rx
    | .nrfDrvUartRx r => if rx.isSome then (.busy, rx) else (.success, some r)
    | _ => (.success, rx)
  uartDeliver := uartEnds
  batteryLevelInPercent mvolts := min 100 (mvolts / 30)
  memory a := if a = 0 then 0xC0 else if a = 1 then 0x07 else 0
  bleGapWhitelistAddrMaxCount := 8
  bleGattStatusAtterrAppBegin := 0x0180

/-- Its states at first: nothing outstanding, nothing stored, no receive. -/
def deviceLink (txBuffers : ℕ) : (device txBuffers).Link := (0 : ℕ)

def devicePm (txBuffers : ℕ) : (device txBuffers).Pm :=
  (⟨[], [], [], List.nodup_nil, List.not_mem_nil⟩ : PeerStore)

def deviceUart (txBuffers : ℕ) : (device txBuffers).Uart := (none : Option RxRequest)

/-- How many notifications are outstanding, and the receive in progress. -/
def deviceOutstanding (txBuffers : ℕ) : (device txBuffers).Link → ℕ :=
  fun outstanding : ℕ => outstanding

def devicePending (txBuffers : ℕ) : (device txBuffers).Uart → Option RxRequest :=
  fun rx : Option RxRequest => rx

/-- The peers bonded, and the two lists. -/
def deviceBonded (txBuffers : ℕ) : (device txBuffers).Pm → List PeerId := PeerStore.bonded

def deviceWhitelist (txBuffers : ℕ) : (device txBuffers).Pm → List PeerId := PeerStore.whitelist

def deviceIdentities (txBuffers : ℕ) : (device txBuffers).Pm → List PeerId := PeerStore.identities

end SnesController
