import SnesController.Sdk
import SnesController.Library.RingBuffer
import Mathlib.Data.UInt

/-!
# The firmware's globals

The variables of `my_ble_globals.h` and of the other headers and files that the handlers
share, the macros with the sizes, and the state of the whole firmware: the globals, the
SDK's states, and what the firmware has handed to the link and to the error handler.

Each source file is compiled by itself, so the header's `static bool m_is_wl_changed` is
a variable of its own in every file that includes it. Three files use it, and the state
has three.

A call of `APP_ERROR_HANDLER` is recorded in `errors` and the firmware goes on. The
SDK's handler resets the chip instead, so the runs here include the ones that end there.
-/

namespace SnesController

/-- `MAX_BUFFER_ENTRIES`. -/
def maxBufferEntries : ℕ := 5

/-- `JOYSTICK_INPUT_REPORT_KEYS_INDEX`. -/
def joystickInputReportKeysIndex : ℕ := 0

/-- `JOYSTICK_INPUT_REPORT_KEYS_MAX_LEN`. -/
def joystickInputReportKeysMaxLen : ℕ := 4

/-- A value stored in a `uint8_t`. -/
def u8 (n : ℕ) : ℕ := n % 2 ^ 8

/-- A value stored in a `uint16_t`. -/
def u16 (n : ℕ) : ℕ := n % 2 ^ 16

theorem u8_of_lt {n : ℕ} (h : n < 256) : u8 n = n := Nat.mod_eq_of_lt h

theorem u16_of_lt {n : ℕ} (h : n < 65536) : u16 n = n := Nat.mod_eq_of_lt h

/-- `buffer_entry_t`. -/
structure BufferEntry where
  dataOffset : ℕ
  dataLen : ℕ
  pData : PatternPtr
  pInstance : HidsPtr
  deriving DecidableEq, Repr

/-- `buffer_list_t`. The array has `maxBufferEntries` slots. -/
structure BufferList where
  buffer : ℕ → BufferEntry
  rp : ℕ
  wp : ℕ
  count : ℕ

/-- The list as a ring. -/
def BufferList.ring (b : BufferList) : RingBuffer BufferEntry := ⟨b.buffer, b.rp, b.wp, b.count⟩

/-- The entries buffered, oldest first. -/
def BufferList.queue (b : BufferList) : List BufferEntry := b.ring.queue maxBufferEntries

/-- The counters of the list agree. -/
def BufferList.WF (b : BufferList) : Prop := b.ring.WF maxBufferEntries

@[simp] theorem BufferList.length_queue (b : BufferList) : b.queue.length = b.count :=
  RingBuffer.length_queue

/-- A report handed to `ble_hids_inp_rep_send`, and what the call returned. -/
structure Report where
  pHids : HidsPtr
  repIndex : ℕ
  len : ℕ
  data : List UInt8
  result : ErrCode
  deriving DecidableEq, Repr

/-- Whether the link took the report. -/
def Report.accepted (r : Report) : Prop := r.result = .success

instance (r : Report) : Decidable r.accepted := inferInstanceAs (Decidable (_ = _))

/-- **The state of the firmware.** -/
structure State (sdk : Sdk) where
  /-- `buffer_list`. -/
  bufferList : BufferList
  /-- `m_in_boot_mode`. -/
  mInBootMode : Bool
  /-- `keypad_state`. -/
  keypadState : UInt16
  /-- `rx_buffer`. -/
  rxBuffer : UInt8 × UInt8
  /-- `m_conn_handle`. -/
  mConnHandle : ℕ
  /-- `m_peer_id`. -/
  mPeerId : PeerId
  /-- `m_whitelist_peers`, `BLE_GAP_WHITELIST_ADDR_MAX_COUNT` of them. -/
  mWhitelistPeers : List PeerId
  /-- `m_whitelist_peer_cnt`. -/
  mWhitelistPeerCnt : ℕ
  /-- `m_is_wl_changed` of `my_ble_advertising.c`. -/
  mIsWlChangedAdvertising : Bool
  /-- `m_is_wl_changed` of `my_ble_peer_manager.c`. -/
  mIsWlChangedPeerManager : Bool
  /-- `m_is_wl_changed` of `my_ble_connection.c`. -/
  mIsWlChangedConnection : Bool
  link : sdk.Link
  pm : sdk.Pm
  uart : sdk.Uart
  /-- The reports handed to the link, in order. -/
  reports : List Report
  /-- The addresses given to `ble_advertising_peer_addr_reply`, in order. -/
  replies : List ℕ
  /-- The codes given to `APP_ERROR_HANDLER`, in order. -/
  errors : List ErrCode

variable {sdk : Sdk}

/-- The globals as the C start-up code leaves them. -/
def State.reset (link : sdk.Link) (pm : sdk.Pm) (uart : sdk.Uart) : State sdk where
  bufferList := ⟨fun _ => ⟨0, 0, .null, .null⟩, 0, 0, 0⟩
  mInBootMode := false
  keypadState := 0
  rxBuffer := (0, 0)
  mConnHandle := bleConnHandleInvalid
  mPeerId := 0
  mWhitelistPeers := List.replicate sdk.bleGapWhitelistAddrMaxCount 0
  mWhitelistPeerCnt := 0
  mIsWlChangedAdvertising := false
  mIsWlChangedPeerManager := false
  mIsWlChangedConnection := false
  link := link
  pm := pm
  uart := uart
  reports := []
  replies := []
  errors := []

/-- The globals after a reset on the SDK with `txBuffers` TX buffers, nothing in its stores. -/
def deviceReset (txBuffers : ℕ) : State (device txBuffers) :=
  .reset (deviceLink txBuffers) (devicePm txBuffers) (deviceUart txBuffers)

/-- `APP_ERROR_HANDLER`. -/
def appErrorHandler (s : State sdk) (err : ErrCode) : State sdk :=
  { s with errors := s.errors ++ [err] }

/-- `APP_ERROR_HANDLER`, under an `if`. -/
def appErrorHandlerIf (c : Prop) [Decidable c] (s : State sdk) (err : ErrCode) : State sdk :=
  { s with errors := if c then s.errors ++ [err] else s.errors }

/-- `APP_ERROR_CHECK`. -/
def appErrorCheck (s : State sdk) (err : ErrCode) : State sdk :=
  appErrorHandlerIf (err ≠ .success) s err

/-- A call of the link whose answer is checked. -/
def linkCallChecked (s : State sdk) (c : LinkCall) : State sdk :=
  appErrorCheck { s with link := (sdk.linkCall s.link c).2 } (sdk.linkCall s.link c).1

/-- The two bytes of a `uint16_t` in memory, low byte first. -/
def leBytes (v : UInt16) : List UInt8 := [v.toUInt8, (v >>> 8).toUInt8]

/-- The `n` bytes at a pattern pointer. `&keypad_state` points to two. -/
def State.load (s : State sdk) (p : PatternPtr) (n : ℕ) : List UInt8 :=
  match p with
  | .null => (List.range n).map sdk.memory
  | .keypadState => (leBytes s.keypadState).take n
  | .obj a => (List.range n).map fun i => sdk.memory (a + i)

end SnesController
