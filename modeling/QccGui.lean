import QccGui.Lib.Machine
import QccGui.Lib.Bytes
import QccGui.Lib.Record
import QccGui.Lib.Framing
import QccGui.Lib.Nor
import QccGui.Lib.Dict
import QccGui.Lib.Segment
import QccGui.Lib.Csv
import QccGui.Lib.Text
import QccGui.Lib.Crc
import QccGui.Lib.Pacing
import QccGui.Lib.Table
import QccGui.Lib.Trailing
import QccGui.Lib.Spans
import QccGui.Lib.Json
import QccGui.Lib.Polling
import QccGui.Lib.SerialFlash
import QccGui.Lib.Uart
import QccGui.Lib.Spi
import QccGui.Firmware.Flash
import QccGui.Firmware.FlashDriver
import QccGui.Firmware.Boot
import QccGui.Firmware.Framing
import QccGui.Firmware.Transfers
import QccGui.Firmware.ReadBack
import QccGui.Firmware.UartDriver
import QccGui.Firmware.SpiDriver
import QccGui.Firmware.Board
import QccGui.Firmware.Receive
import QccGui.Firmware.Endings
import QccGui.Firmware.Readable
import QccGui.Firmware.Region
import QccGui.Firmware.Corrupted
import QccGui.Gui.Packet
import QccGui.Gui.BitErrors
import QccGui.Gui.BootloaderPacket
import QccGui.Gui.Headers
import QccGui.Gui.Controller
import QccGui.Gui.Session
import QccGui.Gui.Gate
import QccGui.Gui.Stream
import QccGui.Gui.Sending
import QccGui.Gui.Operations
import QccGui.Gui.Mock
import QccGui.Gui.Acks
import QccGui.Gui.ClosedLoop
import QccGui.Gui.IapPoll
import QccGui.Gui.Rows
import QccGui.Gui.News
import QccGui.Gui.Alike
import QccGui.Gui.InvalidSlots
import QccGui.Gui.Verdict
import QccGui.Gui.FrameShapes
import QccGui.Gui.Slots
import QccGui.Gui.SlotCodec
import QccGui.Gui.SlotErrors
import QccGui.Gui.Responder
import QccGui.Gui.BadChecksum
import QccGui.Gui.Window
import QccGui.Gui.Wait
import QccGui.Gui.Lock
import QccGui.Gui.TabGate
import QccGui.Gui.Mirror
import QccGui.Gui.TabLocks
import QccGui.Gui.UdpWorker
import QccGui.Gui.UdpAccounts
import QccGui.Gui.UdpRaces
import QccGui.Gui.Relock
import QccGui.Gui.BurnLock
import QccGui.Gui.Outcome
import QccGui.Gui.Watchdog
import QccGui.Gui.Attribution
import QccGui.Gui.Gaps
import QccGui.Gui.LogRow
import QccGui.Gui.LogAnalysis
import QccGui.Gui.RollingLoss
import QccGui.Gui.IndexLists
import QccGui.Gui.GapSummary
import QccGui.Gui.UploadView
import QccGui.Gui.Settings
import QccGui.Gui.FrameLogger
import QccGui.Gui.LoggedReception
import QccGui.Gui.LogPairing
import QccGui.Gui.WriteFailure
import QccGui.Gui.BurnTest
import QccGui.Gui.BurnAccounts
import QccGui.Gui.BurnLog
import QccGui.Gui.BurnPairing
import QccGui.Gui.BurnPacing
import QccGui.Gui.HelperWindows
import QccGui.Gui.Dwell
import QccGui.Gui.DwellRoundTrip
import QccGui.Gui.DwellImport
import QccGui.Link.Codec
import QccGui.Link.Refinement
import QccGui.Link.Board
import QccGui.Link.AckMatrix
import QccGui.Link.AckVerdict
