import Haptics.Config.Check
import Haptics.Frame.Connection
import Haptics.Log.Entry
import Haptics.Main
import Haptics.Server.Journal
import Haptics.Service.Basic
import Haptics.Service.Signal
import Haptics.Wire.Codec
import Haptics.Proofs.Device.Coherence
import Haptics.Proofs.Device.Exchange
import Haptics.Proofs.Event.Streams
import Haptics.Proofs.Fleet.Chronicle
import Haptics.Proofs.Fleet.Race
import Haptics.Proofs.Fleet.Registry
import Haptics.Proofs.Fleet.StopSweep
import Haptics.Proofs.Session.Attendance
import Haptics.Proofs.Session.ClientLoss
import Haptics.Proofs.Session.Correlation
import Haptics.Proofs.Session.Crossing
import Haptics.Proofs.Session.LastStop
import Haptics.Proofs.Session.LifeCycle
import Haptics.Proofs.Session.PingWatch
import Haptics.Proofs.Session.ErrorCategory
import Haptics.Proofs.Wire.RoundTrip
import Haptics.Proofs.Device.Outcome
import Haptics.Proofs.Fleet.Commanding
import Haptics.Proofs.Frame.Lossless
import Haptics.Proofs.Config.Usable
import Haptics.Proofs.Scan.Pump
import Haptics.Proofs.Rule.Layout
import Haptics.Proofs.Protocol.Translation
import Haptics.Proofs.Session.CommandedStop
import Haptics.Proofs.Session.Commons
import Haptics.Proofs.Session.OneOfMany
import Haptics.Proofs.Server.Teardown
import Haptics.Proofs.Server.Shutdown
import Haptics.Proofs.Session.Handshake
import Haptics.Proofs.Device.StopCommand
import Haptics.Proofs.Binary64.Bounded
import Haptics.Proofs.Device.Strokes
import Haptics.Proofs.Fleet.SteadyStops
import Haptics.Proofs.Session.StopThreads
import Haptics.Proofs.Server.Fares
import Haptics.Proofs.Server.Tick
import Haptics.Proofs.Protocol.BatteryReply
import Haptics.Proofs.Rule.Precedence
import Haptics.Proofs.Rule.Arrangement
