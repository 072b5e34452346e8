import Haptics.Link.Simulated
import Haptics.Rule.Rulebook
import Haptics.Session.Basic
/-!
# Configurations

What a server is set up with, and what its parts are given of it. Numbers that come from outside may
be negative or too large until the configuration has been checked; the parts get them cut to their
own width.
-/

namespace Haptics

structure ServerSection where
  name : String := "tactile"
  minVersion : UInt32 := 1
  maxVersion : UInt32 := 3
  /-- How long a client may be silent; 0 sets no limit. -/
  maxPingTimeMs : UInt32 := 1000
  allowRaw : Bool := false
deriving DecidableEq, Repr

structure ListenerSection where
  enabled : Bool := true
  /-- The address to listen on. -/
  address : String := "127.0.0.1"
  port : Int32 := 12345
  maxSessions : Int32 := 16
deriving DecidableEq, Repr

structure SafetySection where
  checkIntervalMs : Int32 := 100
  stopScope : StopScope := .global
deriving DecidableEq, Repr

/-- A rule for devices that is served before the rules for known devices. -/
structure DeviceRule where
  /-- The pattern of the names of the devices. -/
  name : String := ""
  protocol : String := ""
  vibrators : Int32 := 1
  services : List String := []
deriving DecidableEq, Repr

structure SimulationSection where
  enabled : Bool := false
  devices : List SimulatedDevice := []
deriving DecidableEq, Repr

structure Config where
  server : ServerSection := {}
  listener : ListenerSection := {}
  safety : SafetySection := {}
  /-- The size of event queues. -/
  queueSize : Int32 := 256
  devices : List DeviceRule := []
  simulation : SimulationSection := {}
  logLevel : String := "info"
deriving DecidableEq, Repr

/-- What a listener is given. -/
structure ListenerTerms where
  address : String := "127.0.0.1"
  port : UInt16 := 0
  maxSessions : Nat := 16
deriving DecidableEq, Repr

/-- A size as a word of 64 bits; a negative one becomes huge. -/
def sizeOf64 (n : Int32) : Nat := n.toInt64.toUInt64.toNat

/-- What a rule is made from. -/
def DeviceRule.request (r : DeviceRule) : RuleRequest :=
  { protocol := r.protocol, pattern := r.name, vibrators := r.vibrators.toUInt32,
    services := r.services }

namespace Config

/-- What sessions are given. -/
def terms (c : Config) : Terms :=
  { serverName := c.server.name, minVersion := c.server.minVersion,
    maxVersion := c.server.maxVersion, maxPingTimeMs := c.server.maxPingTimeMs,
    stopScope := c.safety.stopScope, eventQueueSize := sizeOf64 c.queueSize }

def listenerTerms (c : Config) : ListenerTerms :=
  { address := c.listener.address, port := c.listener.port.toUInt32.toUInt16,
    maxSessions := sizeOf64 c.listener.maxSessions }

/-- Adds rules in front of a rulebook, the first in front of all, and says why that failed if it
did: the rules are entered from the last to the first, and a rule that cannot be made ends that. -/
def enterRules (book : Rulebook) : List DeviceRule → Rulebook × Option RuleFault
  | [] => (book, none)
  | r :: rest =>
    match enterRules book rest with
    | (book, some e) => (book, some e)
    | (book, none) =>
      match Rule.make r.request with
      | .ok rule => (book.addFront rule, none)
      | .error e => (book, some e)

/-- The rulebook of a server: the rules of its configuration before the rules for known devices. -/
def rulebook (c : Config) : Rulebook × Option RuleFault :=
  enterRules { Rulebook.builtin with allowRaw := c.server.allowRaw } c.devices

end Config

end Haptics
