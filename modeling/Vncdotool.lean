import Vncdotool.RFB.Runs
import Vncdotool.Proxy.Agreement
import Vncdotool.RFB.Termination
import Vncdotool.RFB.Failure
import Vncdotool.RFB.Segmentation
import Vncdotool.RFB.RoundTrip
import Vncdotool.Keys
import Vncdotool.Logging.Recorder
import Vncdotool.RFB.Frames
import Vncdotool.Logging.Isolation
import Vncdotool.Api.Answers
import Vncdotool.Replay.Protocol
import Vncdotool.Streaming.Dialogues
import Vncdotool.Client.Pillow
import Vncdotool.Replay.Pacing
import Vncdotool.Client.VNCDoToolClient
import Vncdotool.Client.Operations
import Vncdotool.RFB.Reports
import Vncdotool.RFB.Blocks
import Vncdotool.RFB.Diagnosis
import Vncdotool.Client.Connecting
import Vncdotool.Client.Session
import Vncdotool.Client.Effects
import Vncdotool.Client.Refresh
import Vncdotool.Client.Desktop
import Vncdotool.Raster.Picture
import Vncdotool.Decoders.Canvas
import Vncdotool.Client.Screen
import Vncdotool.Replay.Requests
import Vncdotool.Raster.Tiling
import Vncdotool.RFB.Hextile
import Vncdotool.RFB.HextileDecoding
import Vncdotool.RFB.Zrle
import Vncdotool.RFB.ZrleDecoding
import Vncdotool.Capture.Preserved
import Vncdotool.Capture.Credentials
import Vncdotool.Api.Disconnect
import Vncdotool.Command.ExitStatus
import Vncdotool.Proxy.OneShot
import Vncdotool.Logging.Clicks
import Vncdotool.Logging.Observer
import Vncdotool.Client.ModeCache
import Vncdotool.Client.ImageMode
import Vncdotool.Client.PixelValue
import Vncdotool.Client.CPixel
import Vncdotool.Client.Pointer
import Vncdotool.Raster.Interpolation
import Vncdotool.Client.Drag
import Vncdotool.Client.VMware
import Vncdotool.Parsing.Recognisers
import Vncdotool.Parsing.Expansion
import Vncdotool.Command.CommandLine
import Vncdotool.Command.CommandGrammar
import Vncdotool.Command.CommandLanguage
import Vncdotool.Command.InputCommands
import Vncdotool.Command.Scripts
import Vncdotool.Command.ServerAddress
import Vncdotool.RFB.ZrleFormat
import Vncdotool.RFB.ZrlePacking
import Vncdotool.RFB.RRE
import Vncdotool.Capture.Conversation
import Vncdotool.Replay.Serving
import Vncdotool.Replay.Listener
import Vncdotool.Replay.Reconnection
import Vncdotool.Replay.Admission
import Vncdotool.Replay.Readiness
import Vncdotool.Capture.Tapped
import Vncdotool.Capture.Lockstep
import Vncdotool.Client.Captures
import Vncdotool.Proxy.Archives
import Vncdotool.Proxy.Hearing
import Vncdotool.RFB.Payloads
import Vncdotool.RFB.Readings
