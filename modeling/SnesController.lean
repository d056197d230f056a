import SnesController.Library.EventRun
import SnesController.Library.RingBuffer
import SnesController.Library.Stutter
import SnesController.Library.ReportMap
import SnesController.Globals
import SnesController.Buffer
import SnesController.BufferFifo
import SnesController.Services
import SnesController.Advertising
import SnesController.Battery
import SnesController.Connection
import SnesController.Firmware
import SnesController.KeyPath
import SnesController.ReportMode
import SnesController.History
import SnesController.Delivery
import SnesController.Slots
import SnesController.Receiver
import SnesController.Stall
import SnesController.Library.Roster
import SnesController.WhitelistPath
import SnesController.Whitelist
import SnesController.Directed
import SnesController.Rebuild
import SnesController.Library.Truncation
import SnesController.Voltage
import SnesController.Indeterminate
import SnesController.Copies
import SnesController.Overfull
import SnesController.Bounds
import SnesController.Recording
import SnesController.Conduct
import SnesController.Handles
import SnesController.Current
import SnesController.Handover
import SnesController.Drain
import SnesController.Interrupted
import SnesController.LastReport
import SnesController.Library.Countdown
import SnesController.Timers
import SnesController.Expiries
import SnesController.Torn
import SnesController.MemorySafety
import SnesController.Completion
