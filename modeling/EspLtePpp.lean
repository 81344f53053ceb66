import EspLtePpp.Library.Segments
import EspLtePpp.Library.Infix
import EspLtePpp.Library.History
import EspLtePpp.Library.Exec
import EspLtePpp.Library.Rescan
import EspLtePpp.Library.FirstMatch
import EspLtePpp.Library.Decimal
import EspLtePpp.Text.CString
import EspLtePpp.Dte.Basic
import EspLtePpp.Dte.Window
import EspLtePpp.Commands.Reply
import EspLtePpp.Commands.Library
import EspLtePpp.Dce.DataMode
import EspLtePpp.App.World
import EspLtePpp.App.CApi
import EspLtePpp.App.Main
import EspLtePpp.App.Exchanges
import EspLtePpp.App.Run
import EspLtePpp.App.Ledger
import EspLtePpp.Modem.Answer
import EspLtePpp.Modem.Reading
import EspLtePpp.Properties.Attribution
import EspLtePpp.Properties.Punctual
import EspLtePpp.Properties.Bounds
import EspLtePpp.Properties.DialGate
import EspLtePpp.Properties.ApnChoice
import EspLtePpp.Properties.SimWait
import EspLtePpp.Properties.Readings
import EspLtePpp.Cmux.Decoder
import EspLtePpp.Cmux.Deframer
import EspLtePpp.Cmux.Delivery
import EspLtePpp.Properties.CmuxRoundTrip
import EspLtePpp.Cmux.Answering
import EspLtePpp.Dce.Modes
import EspLtePpp.Dce.Requests
import EspLtePpp.Properties.CmuxHandshake
import EspLtePpp.Properties.ModeContracts
import EspLtePpp.Properties.ModeLink
