import Haptics.Scan.Simulation
import Haptics.Server.Shutdown
import Haptics.Service.Listener
/-!
# Services

A server set up from a configuration, with the scanner of its simulated devices and its listener.
The parts are started one after the other, and the first that fails ends the start; the parts
started before it stay until the service is shut down.
-/

namespace Haptics

/-- Why a service does not start. -/
inductive ServiceFault
  | rule (why : RuleFault)
  | listener (why : ListenerFault)
deriving DecidableEq, Repr

def ServiceFault.message : ServiceFault → String
  | rule why => why.message
  | listener why => "Listener failed to start: " ++ why.message

structure Service where
  config : Config
  server : Option (Server SimulatedLink) := none
  scanner : Option SimulatedScanner := none
  listener : Option Listener := none
  /-- Whether the service was shut down. That happens once. -/
  ended : Bool := false

namespace Service

/-- Runs something on the server of a service, if it has one, and lets its effects settle. -/
def onServer {α : Type} (v : Service) (absent : α)
    (op : Server SimulatedLink → α × Server SimulatedLink) : α × Service :=
  match v.server with
  | none => (absent, v)
  | some s =>
    let (answer, s) := op s
    (answer, { v with server := some s.settle })

/-- Runs something on the simulation of a service, if it has one, and lets its effects settle. -/
def onSimulation {α : Type} (v : Service) (absent : α) (op : Simulation → α × Simulation) :
    α × Service :=
  match v.scanner, v.server with
  | some scanner, some s =>
    let (answer, x) := op { scanner, fleet := s.fleet, queue := s.scans }
    let s : Server SimulatedLink := { s with fleet := x.fleet, scans := x.queue }
    (answer, { v with scanner := some x.scanner, server := some s.settle })
  | _, _ => (absent, v)

/-- The listener of a configuration, if it is enabled, once it was started. -/
def listener? (config : Config) : Option Listener :=
  if config.listener.enabled then
    some ({ terms := config.listenerTerms } : Listener).start.2
  else none

/-- The scanner of a configuration, if simulation is enabled. -/
def scanner? (config : Config) : Option SimulatedScanner :=
  if config.simulation.enabled then
    some { devices := config.simulation.devices, connected := true }
  else none

/-- Starts a service, or says why that failed. -/
def start (v : Service) : Service × Option ServiceFault :=
  match v.config.rulebook with
  | (_, some e) => (v, some (.rule e))
  | (rulebook, none) =>
    let s : Server SimulatedLink :=
      { fleet := { rulebook }, emitter := some { defaultQueueSize := sizeOf64 v.config.queueSize } }
    let v := { v with server := some s.startDiscovery.startMonitor, scanner := scanner? v.config }
    let (_, v) := v.onSimulation false Simulation.start
    let v := { v with listener := listener? v.config }
    (v, (v.listener.bind (·.fault)).map .listener)

/-- Shuts a service down: the listener and the scanner are stopped with the server. -/
def shutDown (v : Service) : Service :=
  if v.ended then v
  else
    let (_, v) := v.onSimulation () fun x => ((), x.stop)
    { v with ended := true, listener := v.listener.map Listener.stop,
             server := v.server.map Server.shutDown }

end Service

end Haptics
