import Haptics.Config.Basic
import Haptics.Log.Level
/-!
# Checking configurations

A configuration is checked section by section, and the first fault found is reported. One that
passes can be used as it stands: its rules can be made, and its numbers fit where they go.
-/

namespace Haptics

/-- What is wrong with a configuration. -/
inductive ConfigFault
  | noServerName
  | minVersionTooLow
  | versionsCrossed (low high : UInt32)
  | portOutside
  | noAddress
  | noSession
  | checkIntervalTooShort
  | checkIntervalTooLong (checkMs : Int32) (pingMs : UInt32)
  | queueTooSmall
  | ruleWithoutName
  | unknownProtocol (rule protocol : String)
  | vibratorsOutside (rule : String)
  | ruleNotMade (rule : String) (why : RuleFault)
  | deviceIncomplete (position : Nat)
  | batteryOutside (device : String)
  | addressTwice (address : String)
  | unknownLogLevel (text : String)
deriving DecidableEq, Repr

def ConfigFault.message : ConfigFault → String
  | noServerName => "server.name must not be empty"
  | minVersionTooLow => "server.min_version must be >= 1"
  | versionsCrossed low high =>
    "server.min_version (" ++ toString low ++ ") must not exceed server.max_version (" ++
      toString high ++ ")"
  | portOutside => "listener.port must be between 0 and 65535"
  | noAddress => "listener.bind must not be empty"
  | noSession => "listener.max_sessions must be at least 1"
  | checkIntervalTooShort => "safety.check_interval_ms must be >= 10ms"
  | checkIntervalTooLong checkMs pingMs =>
    "safety.check_interval_ms (" ++ toString checkMs ++
      ") must be shorter than server.max_ping_time_ms (" ++ toString pingMs ++ ")"
  | queueTooSmall => "events.queue_size must be at least 1"
  | ruleWithoutName => "Device rule missing 'name' field"
  | unknownProtocol rule protocol =>
    "Device rule '" ++ rule ++ "' has unknown protocol: '" ++ protocol ++ "'"
  | vibratorsOutside rule => "Device rule '" ++ rule ++ "' vibrators must be between 0 and 16"
  | ruleNotMade rule why => "Device rule '" ++ rule ++ "': " ++ why.message
  | deviceIncomplete position =>
    "simulation.devices[" ++ toString position ++ "] needs both 'name' and 'address'"
  | batteryOutside device =>
    "simulation device '" ++ device ++ "' battery must be between 0 and 1"
  | addressTwice address => "Duplicate simulation device address: " ++ address
  | unknownLogLevel text => "Invalid log level: " ++ text

/-- Nothing, or a fault where a condition holds. -/
def ConfigFault.when (bad : Bool) (e : ConfigFault) : Option ConfigFault :=
  if bad then some e else none

open ConfigFault (when)

def ServerSection.fault? (s : ServerSection) : Option ConfigFault :=
  (when s.name.isEmpty .noServerName).or <|
  (when (s.minVersion < 1) .minVersionTooLow).or <|
  when (s.maxVersion < s.minVersion) (.versionsCrossed s.minVersion s.maxVersion)

/-- A listener that is not enabled has no fault. -/
def ListenerSection.fault? (l : ListenerSection) : Option ConfigFault :=
  if l.enabled then
    (when (l.port < 0 || 65535 < l.port) .portOutside).or <|
    (when l.address.isEmpty .noAddress).or <|
    when (l.maxSessions < 1) .noSession
  else none

/-- Silence has to be checked for more often than clients may be silent. -/
def SafetySection.fault? (s : SafetySection) (maxPingTimeMs : UInt32) : Option ConfigFault :=
  (when (s.checkIntervalMs < 10) .checkIntervalTooShort).or <|
  when (0 < maxPingTimeMs && maxPingTimeMs ≤ s.checkIntervalMs.toUInt32)
    (.checkIntervalTooLong s.checkIntervalMs maxPingTimeMs)

def DeviceRule.fault? (r : DeviceRule) : Option ConfigFault :=
  (when r.name.isEmpty .ruleWithoutName).or <|
  (when (Vendor.ofName? r.protocol).isNone (.unknownProtocol r.name r.protocol)).or <|
  (when (r.vibrators < 0 || 16 < r.vibrators) (.vibratorsOutside r.name)).or <|
  match Rule.make r.request with
  | .ok _ => none
  | .error e => some (.ruleNotMade r.name e)

/-- The first fault among simulated devices, the first of which stands at a position. No two may
have one address. -/
def deviceFault? (position : Nat) (earlier : List String) :
    List SimulatedDevice → Option ConfigFault
  | [] => none
  | d :: rest =>
    (when (d.name.isEmpty || d.address.isEmpty) (.deviceIncomplete position)).or <|
    (when (d.battery.any fun b => b.lt .zero || Binary64.one.lt b) (.batteryOutside d.name)).or <|
    (when (earlier.contains d.address) (.addressTwice d.address)).or <|
    deviceFault? (position + 1) (d.address :: earlier) rest

namespace Config

/-- The first fault of a configuration, if it has one. -/
def fault? (c : Config) : Option ConfigFault :=
  c.server.fault?.or <|
  c.listener.fault?.or <|
  (c.safety.fault? c.server.maxPingTimeMs).or <|
  (when (c.queueSize < 1) .queueTooSmall).or <|
  (c.devices.findSome? DeviceRule.fault?).or <|
  (if c.simulation.enabled then deviceFault? 0 [] c.simulation.devices else none).or <|
  when (LogLevel.ofName? c.logLevel).isNone (.unknownLogLevel c.logLevel)

end Config

end Haptics
